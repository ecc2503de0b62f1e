import TypeEnv.Tycon.Ref

namespace TypeEnv

/-- A rule for each stamp; the newest rule comes first. -/
abbrev StampRules (ρ : Type) := List (Stamp × ρ)

namespace StampRules

variable {ρ : Type}

/-- The rules for the constructors that are defined by now. A constructor that is not defined yet gets
no rule. -/
def build (store : UnitStore) (rules : List (TyconRef × ρ)) : StampRules ρ :=
  rules.reverse.filterMap fun (tycon, rule) =>
    (tycon.stamp? store).map fun stamp => (stamp, rule)

def find? (rules : StampRules ρ) (store : UnitStore) (tycon : TyconRef) : Option ρ :=
  (tycon.stamp? store).bind fun stamp => rules.lookup stamp

end StampRules

end TypeEnv
