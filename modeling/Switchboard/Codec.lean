import Switchboard.Call.Descriptor
import Switchboard.Registry

namespace Switchboard.Codec

variable {α : Type}

def record? (names : List String) : Json → Option (List (Option Json))
  | .obj entries => some (names.map fun n => Keyed.find? n entries)
  | .arr items => if items.length = names.length then some (items.map some) else none
  | _ => none

theorem sizeOf_lt_of_find? {name : String} {v : Json} :
    ∀ {entries : List (String × Json)}, Keyed.find? name entries = some v →
      sizeOf v < sizeOf entries
  | [], h => by simp [Keyed.find?] at h
  | (k, w) :: rest, h => by
      simp only [Keyed.find?] at h
      split at h
      · simp only [Option.some.injEq] at h
        subst h
        simp only [List.cons.sizeOf_spec, Prod.mk.sizeOf_spec]
        omega
      · have := sizeOf_lt_of_find? h
        simp only [List.cons.sizeOf_spec]
        omega

theorem sizeOf_lt_of_record? {names : List String} {v w : Json} {fields : List (Option Json)}
    (h : record? names v = some fields) (hw : some w ∈ fields) : sizeOf w < sizeOf v := by
  cases v with
  | obj entries =>
      simp only [record?, Option.some.injEq] at h
      subst h
      obtain ⟨n, _, hn⟩ := List.mem_map.1 hw
      have := sizeOf_lt_of_find? hn
      simp only [Json.obj.sizeOf_spec]
      omega
  | arr items =>
      simp only [record?] at h
      split at h
      · simp only [Option.some.injEq] at h
        subst h
        have := List.sizeOf_lt_of_mem (show w ∈ items by simpa using hw)
        simp only [Json.arr.sizeOf_spec]
        omega
      · simp at h
  | _ => simp [record?] at h

def optional (decode? : Json → Option α) : Option Json → Option (Option α)
  | none | some .null => some none
  | some v => (decode? v).map some

def encodeOption (encode : α → Json) : Option α → Json
  | none => .null
  | some a => encode a

def encodeString (s : String) : Json := .str s

def list? (decode? : Json → Option α) : Json → Option (List α)
  | .arr items => items.mapM decode?
  | _ => none

def word? : Json → Option Nat
  | .int n => if 0 ≤ n && n < Int.pow 2 32 then some n.toNat else none
  | _ => none

def encodeNat (n : Nat) : Json := .int n

def memberId? : Json → Option MemberId := Json.asString?

def encodeMember (m : Member) : Json :=
  .object [("id", .str m.id), ("address", .str m.address), ("lite", .bool m.lite)]

def member? (v : Json) : Option Member :=
  match record? ["id", "address", "lite"] v with
  | some [some id, some address, some lite] => do
      return ⟨← memberId? id, ← address.asString?, ← lite.asBool?⟩
  | _ => none

def encodeStatus (s : MemberStatus) : Json := .str s.name

def statusNamed? (name : String) : Option MemberStatus :=
  if name = MemberStatus.active.name then some .active
  else if name = MemberStatus.degraded.name then some .degraded
  else none

/-- A status is its name, or an object that gives the name a null. -/
def status? : Json → Option MemberStatus
  | .str name => statusNamed? name
  | .obj [(name, .null)] => statusNamed? name
  | _ => none

def encodeInfo (i : MemberInfo) : Json :=
  .object [("member", encodeMember i.member), ("status", encodeStatus i.status)]

def info? (v : Json) : Option MemberInfo :=
  match record? ["member", "status"] v with
  | some [some m, some s] => do return ⟨← member? m, ← status? s⟩
  | _ => none

def encodeFrame (f : Frame) : Json :=
  .object
    [("function", .str f.function), ("file", encodeOption .str f.file),
      ("line", encodeOption encodeNat f.line)]

def frame? (v : Json) : Option Frame :=
  match record? ["function", "file", "line"] v with
  | some [some function, file, line] => do
      return ⟨← function.asString?, ← optional Json.asString? file, ← optional word? line⟩
  | _ => none

def encodeRemote : RemoteError → Json
  | .mk kind message frames cause =>
      .object
        [("kind", .str kind), ("message", .str message), ("frames", .arr (frames.map encodeFrame)),
          ("cause", match cause with
            | none => .null
            | some c => encodeRemote c)]

def remote? (v : Json) : Option RemoteError :=
  match h : record? ["kind", "message", "frames", "cause"] v with
  | some [some kind, some message, some frames, cause] => do
      let kind ← kind.asString?
      let message ← message.asString?
      let frames ← list? frame? frames
      match hc : cause with
      | none | some .null => some (.mk kind message frames none)
      | some c =>
          have : sizeOf c < sizeOf v := sizeOf_lt_of_record? h (by simp [hc])
          let c ← remote? c
          some (.mk kind message frames (some c))
  | _ => none
termination_by sizeOf v

def encodeKey (k : PartitionKey) : Json := k.value

def key? (v : Json) : Option PartitionKey := some ⟨v⟩

def encodeCall (c : Call) : Json :=
  .object
    [("slice_name", .str c.slice), ("service_name", .str c.service),
      ("method_name", .str c.method), ("arg_types", .arr (c.argTypes.map .str)),
      ("args", .arr c.args), ("partition_key", encodeOption encodeKey c.key)]

def call? (v : Json) : Option Call :=
  match record? ["slice_name", "service_name", "method_name", "arg_types", "args", "partition_key"]
      v with
  | some [some slice, some service, some method, some types, some args, key] => do
      return {
        slice := ← slice.asString?
        service := ← service.asString?
        method := ← method.asString?
        argTypes := ← list? Json.asString? types
        args := ← args.asArray?
        key := ← optional key? key }
  | _ => none

end Switchboard.Codec
