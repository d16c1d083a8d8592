import ReportPress.Yaml.Value

/-!
# Members of mappings

A mapping has the members that stand in it and those that another mapping lends it under the name
`<<`.  No name stands in it twice, and its own members go before lent ones of the same name.

* `isLoan` — whether a name says that the value lends its members.
* `membersOf?` — own and lent members apart.
* `Yaml.members?` — the members of a mapping.
* `Yaml.isSound` — whether a value can be passed over.
* `Yaml.named?` — the members of a mapping whose names are known.
-/

namespace ReportPress.Yaml

/-- Whether a name says that the value lends its members. -/
def isLoan : Yaml → Bool
  | .scalar text plain tag => text = "<<" && plain && tag = .absent
  | _ => false

mutual

/-- The members that a value lends: those of a mapping, or those of all mappings in a sequence, the
last of them first. -/
def lent? : Yaml → Option (List (Yaml × Yaml))
  | .scalar text plain tag => if isNull (.scalar text plain tag) then some [] else none
  | .sequence items => lentByAll? items
  | .mapping members => (membersOf? members).map fun (own, lent) => own ++ lent

/-- The members that values lend, those of the last first. -/
def lentByAll? : List Yaml → Option (List (Yaml × Yaml))
  | [] => some []
  | y :: ys => do
    let later ← lentByAll? ys
    return later ++ (← lent? y)

/-- The members that stand in a mapping, and those that are lent to it, the last first. -/
def membersOf? : List (Yaml × Yaml) → Option (List (Yaml × Yaml) × List (Yaml × Yaml))
  | [] => some ([], [])
  | (name, value) :: members => do
    let (own, lent) ← membersOf? members
    if isLoan name then return (own, lent ++ (← lent? value))
    else return ((name, value) :: own, lent)

end

/-- Whether a name is that of a member. -/
def isNamed (name : Yaml) (members : List (Yaml × Yaml)) : Bool :=
  members.any fun m => m.1.walk = name.walk

/-- Whether two members have the same name. -/
def hasRepetition : List (Yaml × Yaml) → Bool
  | [] => false
  | (name, _) :: members => isNamed name members || hasRepetition members

/-- Members followed by those of others whose names are not among them. -/
def extend (members : List (Yaml × Yaml)) : List (Yaml × Yaml) → List (Yaml × Yaml)
  | [] => members
  | m :: more => extend (if isNamed m.1 members then members else members ++ [m]) more

/-- The members of a mapping; there are none where no value is. -/
def members? : Yaml → Option (List (Yaml × Yaml))
  | .mapping members => do
    let (own, lent) ← membersOf? members
    if hasRepetition own then none else some (extend own lent)
  | y => if y.isNull then some [] else none

/-- Whether the mappings down to some depth have the members that they say. -/
def isSoundTo : (depth : Nat) → Yaml → Bool
  | 0, _ => true
  | _, .scalar .. => true
  | depth + 1, .sequence items => items.all (isSoundTo depth)
  | depth + 1, .mapping members =>
    match members? (.mapping members) with
    | some ms => ms.all fun (name, value) => isSoundTo depth name && isSoundTo depth value
    | none => false

/-- Whether a value can be passed over. -/
def isSound (y : Yaml) : Bool := isSoundTo y.size y

/-- The members of a mapping whose names are texts and `known`; two of them may not have the same
text as a name, even if the tags of these differ.  All others are passed over. -/
def named? (known : List String) (y : Yaml) : Option (List (String × Yaml)) := do
  let members ← (← members? y).mapM fun (name, value) => name.text?.map (·, value)
  let (wanted, others) := members.partition fun (name, _) => known.contains name
  if (wanted.map Prod.fst).Nodup && others.all (fun (_, value) => value.isSound) then some wanted
  else none

end ReportPress.Yaml
