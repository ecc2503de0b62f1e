import TypeEnv.Session.Basic

namespace TypeEnv.Session

def findAttribute (full : String) : SessionM AttributeInfo := do
  let session ← get
  let (info, attributes) ← interns (session.attributes.find session.resolver session.units full)
  modify fun session => { session with attributes }
  return info

def findAttribute? (full : String) : SessionM (Option AttributeInfo) := do
  let session ← get
  interns (AttributeCatalogue.find? session.resolver session.units full)

/-- The attribute, defined in the unit under compilation if no unit provides it, it is a marker
attribute, and the language version embeds attributes. -/
def findOrEmbedAttribute (full : String) : SessionM AttributeInfo := do
  let session ← get
  let host :=
    if session.config.supports .embeddedAttributes then some session.localUnit else none
  let outcome ←
    interns (session.attributes.findOrEmbed session.resolver session.units host full)
  let embedding ← orError outcome
  modify fun session =>
    { session with attributes := embedding.catalogue, units := embedding.units }
  return embedding.info

def embeddedTypes (session : Session) : List TypeDef :=
  session.attributes.embeddedTypes session.units

def generatedAttributes (session : Session) (members : List GeneratedMember) :
    List CustomAttribute :=
  members.flatMap
    (session.wellKnownAttributes.forGenerated session.config.suppressDebugAttributes)

end TypeEnv.Session
