import Switchboard.Call.Descriptor

namespace Switchboard

inductive PolicyError where
  | noMembers (policy : String)
  | unknown (policy : String)
  | construction (policy reason : String)
  deriving DecidableEq, Repr

def PolicyError.message : PolicyError → String
  | noMembers p => "No members available for policy " ++ p
  | unknown p => "Unknown routing policy: " ++ p
  | construction p reason => "Failed to construct routing policy " ++ p ++ ": " ++ reason

abbrev Cursor := UInt64

structure RoutingPolicy where
  name : String
  choose : List Member → Call → Cursor → Except PolicyError Member × Cursor

namespace RoutingPolicy

/-- Chooses among the data members by place, the place taken modulo their number. Without any the
cursor stays. -/
def byPlace (name : String) (place : Call → Cursor → Nat) (next : Cursor → Cursor) :
    RoutingPolicy where
  name := name
  choose alive call cursor :=
    match (dataMembers alive)[place call cursor % (dataMembers alive).length]? with
    | some m => (.ok m, next cursor)
    | none => (.error (.noMembers name), cursor)

def roundRobin : RoutingPolicy := byPlace "round-robin" (fun _ c => c.toNat) (· + 1)

def scatter (c : Cursor) : UInt64 :=
  let x := (c + 1) * 0x9E3779B97F4A7C15
  let x := (x ^^^ (x >>> 30)) * 0xBF58476D1CE4E5B9
  let x := (x ^^^ (x >>> 27)) * 0x94D049BB133111EB
  x ^^^ (x >>> 31)

/-- Any of them: the draws stand for a source of chance, read one after the other. -/
def drawn (draw : Cursor → Nat) : RoutingPolicy := byPlace "random" (fun _ c => draw c) (· + 1)

def scattered : Cursor → Nat := fun c => (scatter c).toNat

def random : RoutingPolicy := drawn scattered

def sticky : RoutingPolicy :=
  byPlace "sticky" (fun call _ => (call.args.head?.map fun v => v.text.utf8ByteSize).getD 0) id

theorem byPlace_choose_mem {name : String} {place : Call → Cursor → Nat} {next : Cursor → Cursor}
    {alive : List Member} {call : Call} {cursor : Cursor} {m : Member}
    (h : ((byPlace name place next).choose alive call cursor).1 = .ok m) :
    m ∈ dataMembers alive := by
  simp only [byPlace] at h
  split at h
  · next hm =>
      simp only [Except.ok.injEq] at h
      subst h
      exact List.mem_of_getElem? hm
  · simp at h

end RoutingPolicy

end Switchboard
