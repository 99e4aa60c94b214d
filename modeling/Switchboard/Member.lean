namespace Switchboard

abbrev MemberId := String

/-- A member of the cluster. A lite member owns no partition and hosts no service. -/
structure Member where
  id : MemberId
  address : String
  lite : Bool
  deriving DecidableEq, Repr, Inhabited

def Member.display (m : Member) : String :=
  "Member[" ++ m.id ++ "@" ++ m.address ++ (if m.lite then " lite" else "") ++ "]"

def dataMembers (members : List Member) : List Member := members.filter (!·.lite)

theorem mem_dataMembers {m : Member} {members : List Member} :
    m ∈ dataMembers members ↔ m ∈ members ∧ m.lite = false := by
  simp [dataMembers]

end Switchboard
