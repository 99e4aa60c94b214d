import Switchboard.Keyed
import Switchboard.Member

namespace Switchboard

inductive MemberStatus where
  | active
  | degraded
  deriving DecidableEq, Repr

def MemberStatus.name : MemberStatus → String
  | .active => "Active"
  | .degraded => "Degraded"

structure MemberInfo where
  member : Member
  status : MemberStatus
  deriving DecidableEq, Repr

namespace MemberInfo

def ofMember (m : Member) : MemberInfo := ⟨m, .active⟩

def isAvailable (i : MemberInfo) : Bool := i.status = .active

end MemberInfo

structure Registry where
  members : List (String × MemberInfo) := []

namespace Registry

def empty : Registry := {}

def register (r : Registry) (m : Member) : Registry :=
  ⟨Keyed.insert m.id (.ofMember m) r.members⟩

def unregister (r : Registry) (id : MemberId) : Registry := ⟨Keyed.erase id r.members⟩

def updateStatus (r : Registry) (id : MemberId) (s : MemberStatus) : Registry :=
  ⟨Keyed.modify id (fun i => { i with status := s }) r.members⟩

def get? (r : Registry) (id : MemberId) : Option MemberInfo := Keyed.find? id r.members

def contains (r : Registry) (id : MemberId) : Bool := Keyed.contains id r.members

def alive (r : Registry) : List Member :=
  ((Keyed.values r.members).filter MemberInfo.isAvailable).map MemberInfo.member

def count (r : Registry) : Nat := r.members.length

def activeCount (r : Registry) : Nat := (Keyed.values r.members).countP MemberInfo.isAvailable

def ofList (members : List Member) : Registry := members.foldl register empty

theorem get?_register_self (r : Registry) (m : Member) :
    (r.register m).get? m.id = some (.ofMember m) :=
  Keyed.find?_insert_self ..

theorem get?_register_of_ne (r : Registry) {m : Member} {id : MemberId} (h : id ≠ m.id) :
    (r.register m).get? id = r.get? id :=
  Keyed.find?_insert_of_ne h ..

theorem get?_updateStatus_self (r : Registry) (id : MemberId) (s : MemberStatus) :
    (r.updateStatus id s).get? id = (r.get? id).map fun i => { i with status := s } :=
  Keyed.find?_modify_self ..

theorem activeCount_eq (r : Registry) : r.activeCount = r.alive.length := by
  simp [activeCount, alive, List.countP_eq_length_filter]

end Registry

end Switchboard
