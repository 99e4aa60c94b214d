import Mathlib.Data.List.Forall2
import Switchboard.Codec
import Switchboard.Proofs.Keyed

namespace Switchboard

def Frame.Valid (f : Frame) : Prop := ∀ n ∈ f.line, n < Nat.pow 2 32

def RemoteError.Valid : RemoteError → Prop
  | .mk _ _ frames cause => (∀ f ∈ frames, f.Valid) ∧
      (match cause with
        | none => True
        | some c => c.Valid)

def PartitionKey.Valid (k : PartitionKey) : Prop := k.value ≠ .null

def Call.Valid (c : Call) : Prop := ∀ k ∈ c.key, k.Valid

theorem RemoteError.induct {P : RemoteError → Prop}
    (mk : ∀ kind message frames cause, (∀ c ∈ cause, P c) → P (.mk kind message frames cause)) :
    ∀ e, P e
  | .mk kind message frames none => mk kind message frames none (by simp)
  | .mk kind message frames (some c) =>
      have hc : P c := RemoteError.induct mk c
      mk kind message frames (some c) (by simpa using hc)

theorem RemoteError.valid_mk {kind message : String} {frames : List Frame}
    {cause : Option RemoteError} : (RemoteError.mk kind message frames cause).Valid ↔
      (∀ f ∈ frames, f.Valid) ∧ ∀ c ∈ cause, c.Valid := by
  cases cause <;> simp [RemoteError.Valid]

namespace Codec

abbrev Form := Json → Prop

inductive Required (F : Form) : Option Json → Prop
  | given {v : Json} : F v → Required F (some v)

inductive Optional : Option Form → Option Json → Prop
  | leftOut : Optional none none
  | null : Optional none (some .null)
  | given {F : Form} {v : Json} : v ≠ .null → F v → Optional (some F) (some v)

abbrev Fields := List (String × (Option Json → Prop))

inductive Record (fields : Fields) : Form
  | arr {items : List Json} :
      List.Forall₂ (fun v f => f.2 (some v)) items fields → Record fields (.arr items)
  | obj {entries : List (String × Json)} :
      (∀ f ∈ fields, f.2 (Keyed.find? f.1 entries)) → Record fields (.obj entries)

inductive Listed {α : Type} (F : α → Form) (as : List α) : Form
  | arr {items : List Json} : List.Forall₂ F as items → Listed F as (.arr items)

def TextForm (s : String) : Form := fun v => v = .str s

def FlagForm (b : Bool) : Form := fun v => v = .bool b

def WordForm (n : Nat) : Form := fun v => v = .int n ∧ n < Nat.pow 2 32

def ItemsForm (vs : List Json) : Form := fun v => v = .arr vs

def KeyForm (k : PartitionKey) : Form := fun v => v = k.value

def StatusForm (s : MemberStatus) : Form := fun v => v = .str s.name ∨ v = .obj [(s.name, .null)]

def MemberForm (m : Member) : Form :=
  Record
    [("id", Required (TextForm m.id)), ("address", Required (TextForm m.address)),
      ("lite", Required (FlagForm m.lite))]

def InfoForm (i : MemberInfo) : Form :=
  Record [("member", Required (MemberForm i.member)), ("status", Required (StatusForm i.status))]

def FrameForm (f : Frame) : Form :=
  Record
    [("function", Required (TextForm f.function)), ("file", Optional (f.file.map TextForm)),
      ("line", Optional (f.line.map WordForm))]

def RemoteForm : RemoteError → Form
  | .mk kind message frames cause =>
      Record
        [("kind", Required (TextForm kind)), ("message", Required (TextForm message)),
          ("frames", Required (Listed FrameForm frames)),
          ("cause", Optional (match cause with
            | none => none
            | some c => some (RemoteForm c)))]

def CallForm (c : Call) : Form :=
  Record
    [("slice_name", Required (TextForm c.slice)), ("service_name", Required (TextForm c.service)),
      ("method_name", Required (TextForm c.method)),
      ("arg_types", Required (Listed TextForm c.argTypes)),
      ("args", Required (ItemsForm c.args)), ("partition_key", Optional (c.key.map KeyForm))]

variable {α : Type} {decode? : Json → Option α} {F : α → Form} {fields : Fields} {v : Json}

theorem remoteForm_mk (kind message : String) (frames : List Frame) (cause : Option RemoteError) :
    RemoteForm (.mk kind message frames cause) =
      Record
        [("kind", Required (TextForm kind)), ("message", Required (TextForm message)),
          ("frames", Required (Listed FrameForm frames)),
          ("cause", Optional (cause.map RemoteForm))] := by
  cases cause <;> rw [RemoteForm] <;> rfl

abbrev Exact (decode? : Json → Option α) (F : α → Form) : Prop := ∀ a v, decode? v = some a ↔ F a v

theorem exact_text : Exact Json.asString? TextForm := by
  intro s v
  cases v <;> simp [Json.asString?, TextForm]

theorem exact_flag : Exact Json.asBool? FlagForm := by
  intro b v
  cases v <;> simp [Json.asBool?, FlagForm]

theorem exact_word : Exact word? WordForm := by
  intro n v
  cases v with
  | int i =>
      simp only [word?, WordForm, Json.int.injEq]
      split
      · next h =>
          simp at h
          simp
          omega
      · next h =>
          simp at h
          simp
          omega
  | _ => simp [word?, WordForm]

theorem exact_items : Exact Json.asArray? ItemsForm := by
  intro vs v
  cases v <;> simp [Json.asArray?, ItemsForm]

theorem exact_key : Exact key? KeyForm := by
  rintro ⟨value⟩ v
  simp [key?, KeyForm]

theorem exact_status : Exact status? StatusForm := by
  have hnamed (name : String) (s : MemberStatus) : statusNamed? name = some s ↔ name = s.name := by
    cases s <;> grind [statusNamed?, MemberStatus.name]
  intro s v
  unfold status?
  split
  · simp [hnamed, StatusForm]
  · simp [hnamed, StatusForm]
  · next hstr hobj =>
      simp only [reduceCtorEq, StatusForm, false_iff, not_or]
      exact ⟨fun h => hstr _ h, fun h => hobj _ h⟩

theorem mapM_eq_some (h : Exact decode? F) {items : List Json} {as : List α} :
    items.mapM decode? = some as ↔ List.Forall₂ F as items := by
  induction items generalizing as with
  | nil => cases as <;> simp
  | cons v items ih =>
      cases as with
      | nil => simp [Option.bind_eq_some_iff]
      | cons a as => simp [Option.bind_eq_some_iff, h a v, ih]

theorem exact_list (h : Exact decode? F) : Exact (list? decode?) (Listed F) := by
  intro as v
  constructor
  · intro hv
    cases v with
    | arr items => exact .arr ((mapM_eq_some h).1 hv)
    | _ => simp [list?] at hv
  · rintro ⟨hitems⟩
    exact (mapM_eq_some h).2 hitems

theorem optional_eq_some {x : Option α} {o : Option Json}
    (h : ∀ a ∈ x, ∀ v, decode? v = some a ↔ F a v) :
    optional decode? o = some x ↔ Optional (x.map F) o := by
  constructor
  · intro ho
    unfold optional at ho
    split at ho
    · cases ho
      exact .leftOut
    · cases ho
      exact .null
    · next v hv =>
        obtain ⟨a, ha, rfl⟩ := Option.map_eq_some_iff.1 ho
        exact .given (by simpa using hv) ((h a rfl v).1 ha)
  · intro ho
    cases x with
    | none => cases ho <;> rfl
    | some a =>
        cases ho with
        | given hv hF =>
            have ha := (h a rfl _).2 hF
            unfold optional
            split
            · next heq => cases heq
            · next heq => cases heq; exact absurd rfl hv
            · next heq => cases heq; rw [ha]; rfl

theorem record_iff : Record fields v ↔
    ∃ found, record? (fields.map (·.1)) v = some found ∧
      List.Forall₂ (fun o f => f.2 o) found fields := by
  constructor
  · rintro (⟨hitems⟩ | ⟨hentries⟩)
    · next items =>
        refine ⟨items.map some, ?_, List.forall₂_map_left_iff.2 hitems⟩
        simp [record?, hitems.length_eq]
    · refine ⟨_, rfl, ?_⟩
      rw [List.map_map, List.forall₂_map_left_iff, List.forall₂_same]
      exact hentries
  · rintro ⟨found, hv, hfound⟩
    cases v with
    | arr items =>
        simp only [record?] at hv
        split at hv
        · cases hv
          exact .arr (List.forall₂_map_left_iff.1 hfound)
        · cases hv
    | obj entries =>
        cases hv
        rw [List.map_map, List.forall₂_map_left_iff, List.forall₂_same] at hfound
        exact .obj hfound
    | _ => cases hv

theorem Record.field {f : String × (Option Json → Prop)} (h : Record fields v) (hf : f ∈ fields) :
    ∃ o, f.2 o := by
  cases h with
  | obj hentries => exact ⟨_, hentries f hf⟩
  | arr hitems =>
      induction hitems with
      | nil => simp at hf
      | cons hfirst _ ih =>
          rcases List.mem_cons.1 hf with rfl | hf
          · exact ⟨_, hfirst⟩
          · exact ih hf

theorem required_iff {F : Form} {o : Option Json} : Required F o ↔ ∃ v, o = some v ∧ F v := by
  constructor
  · rintro ⟨h⟩
    exact ⟨_, rfl, h⟩
  · rintro ⟨v, rfl, h⟩
    exact .given h

theorem exact_member : Exact member? MemberForm := by
  rintro ⟨id, address, lite⟩ v
  simp only [MemberForm, record_iff, member?, required_iff, List.forall₂_cons_right_iff,
    List.forall₂_nil_right_iff, List.map_cons, List.map_nil, ↓existsAndEq, true_and, and_true]
  split
  · next hv =>
      simp only [hv, memberId?, Option.bind_eq_bind, Option.bind_eq_some_iff, Option.pure_def,
        Option.some.injEq, Member.mk.injEq, exact_text _ _, exact_flag _ _]
      grind
  · next hv => grind

theorem exact_info : Exact info? InfoForm := by
  rintro ⟨member, status⟩ v
  simp only [InfoForm, record_iff, info?, required_iff, List.forall₂_cons_right_iff,
    List.forall₂_nil_right_iff, List.map_cons, List.map_nil, ↓existsAndEq, true_and, and_true]
  split
  · next hv =>
      simp only [hv, Option.bind_eq_bind, Option.bind_eq_some_iff, Option.pure_def,
        Option.some.injEq, MemberInfo.mk.injEq, exact_member _ _, exact_status _ _]
      grind
  · next hv => grind

theorem exact_frame : Exact frame? FrameForm := by
  rintro ⟨function, file, line⟩ v
  simp only [FrameForm, record_iff, frame?, required_iff, List.forall₂_cons_right_iff,
    List.forall₂_nil_right_iff, List.map_cons, List.map_nil, ↓existsAndEq, true_and, and_true]
  split
  · next hv =>
      simp only [hv, Option.bind_eq_bind, Option.bind_eq_some_iff, Option.pure_def,
        Option.some.injEq, Frame.mk.injEq, exact_text _ _,
        optional_eq_some fun a _ => exact_text a, optional_eq_some fun a _ => exact_word a]
      grind
  · next hv => grind

theorem exact_call : Exact call? CallForm := by
  rintro ⟨slice, service, method, argTypes, args, key⟩ v
  simp only [CallForm, record_iff, call?, required_iff, List.forall₂_cons_right_iff,
    List.forall₂_nil_right_iff, List.map_cons, List.map_nil, ↓existsAndEq, true_and, and_true]
  split
  · next hv =>
      simp only [hv, Option.bind_eq_bind, Option.bind_eq_some_iff, Option.pure_def,
        Option.some.injEq, Call.mk.injEq, exact_text _ _, exact_list exact_text _ _,
        exact_items _ _, optional_eq_some fun a _ => exact_key a]
      grind
  · next hv => grind

theorem remote?_eq (v : Json) : remote? v =
    match record? ["kind", "message", "frames", "cause"] v with
    | some [some kind, some message, some frames, cause] => do
        return .mk (← kind.asString?) (← message.asString?) (← list? frame? frames)
          (← optional remote? cause)
    | _ => none := by
  rw [remote?]
  split
  · next kind message frames cause hv =>
      simp only [hv]
      cases cause with
      | none => rfl
      | some c =>
          cases c with
          | null => rfl
          | _ =>
              simp only [optional, Option.bind_eq_bind, Option.bind_map]
              rfl
  · next hv =>
      split
      · next hv' => exact (hv _ _ _ _ hv').elim
      · rfl

theorem exact_remote : Exact remote? RemoteForm := by
  intro e
  induction e using RemoteError.induct with
  | mk kind message frames cause ih =>
      intro v
      simp only [remoteForm_mk, record_iff, remote?_eq, required_iff, List.forall₂_cons_right_iff,
        List.forall₂_nil_right_iff, List.map_cons, List.map_nil, ↓existsAndEq, true_and, and_true]
      split
      · next hv =>
          have hcause (o : Option Json) :
              optional remote? o = some cause ↔ Optional (cause.map RemoteForm) o :=
            optional_eq_some ih
          simp only [hv, Option.bind_eq_bind, Option.bind_eq_some_iff, Option.pure_def,
            Option.some.injEq, RemoteError.mk.injEq, exact_text _ _, exact_list exact_frame _ _]
          grind
      · next hv => grind

variable {encode : α → Json}

theorem listed_map {as : List α} (h : ∀ a ∈ as, F a (encode a)) :
    Listed F as (.arr (as.map encode)) :=
  .arr (List.forall₂_map_right_iff.2 (List.forall₂_same.2 h))

theorem optional_encodeOption {x : Option α} (h : ∀ a ∈ x, encode a ≠ .null ∧ F a (encode a)) :
    Optional (x.map F) (some (encodeOption encode x)) := by
  cases x with
  | none => exact .null
  | some a => exact .given (h a rfl).1 (h a rfl).2

theorem written_member (m : Member) : MemberForm m (encodeMember m) :=
  .obj (by simp [Keyed.find?_ofList, Keyed.last?, required_iff, TextForm, FlagForm])

theorem written_info (i : MemberInfo) : InfoForm i (encodeInfo i) :=
  .obj (by simp [Keyed.find?_ofList, Keyed.last?, required_iff, written_member, encodeStatus,
    StatusForm])

theorem written_frame {f : Frame} (h : f.Valid) : FrameForm f (encodeFrame f) := by
  have hfile : Optional (f.file.map TextForm) (some (encodeOption .str f.file)) :=
    optional_encodeOption fun s _ => ⟨by simp, rfl⟩
  have hline : Optional (f.line.map WordForm) (some (encodeOption encodeNat f.line)) :=
    optional_encodeOption fun n hn => ⟨by simp [encodeNat], rfl, h n hn⟩
  exact .obj (by simp [Keyed.find?_ofList, Keyed.last?, required_iff, TextForm, hfile, hline])

theorem encodeRemote_mk (kind message : String) (frames : List Frame)
    (cause : Option RemoteError) : encodeRemote (.mk kind message frames cause) =
      .object
        [("kind", .str kind), ("message", .str message), ("frames", .arr (frames.map encodeFrame)),
          ("cause", encodeOption encodeRemote cause)] := by
  cases cause <;> rw [encodeRemote] <;> rfl

theorem written_remote {e : RemoteError} (h : e.Valid) : RemoteForm e (encodeRemote e) := by
  induction e using RemoteError.induct with
  | mk kind message frames cause ih =>
      obtain ⟨hframes, hvalid⟩ := RemoteError.valid_mk.1 h
      have hlisted : Listed FrameForm frames (.arr (frames.map encodeFrame)) :=
        listed_map fun f hf => written_frame (hframes f hf)
      have hcause : Optional (cause.map RemoteForm) (some (encodeOption encodeRemote cause)) := by
        refine optional_encodeOption fun c hc => ⟨?_, ih c hc (hvalid c hc)⟩
        cases c
        simp [encodeRemote_mk, Json.object]
      rw [remoteForm_mk, encodeRemote_mk]
      exact .obj (by simp [Keyed.find?_ofList, Keyed.last?, required_iff, TextForm, hlisted,
        hcause])

theorem written_call {c : Call} (h : c.Valid) : CallForm c (encodeCall c) := by
  have htypes : Listed TextForm c.argTypes (.arr (c.argTypes.map .str)) :=
    listed_map fun s _ => rfl
  have hkey : Optional (c.key.map KeyForm) (some (encodeOption encodeKey c.key)) :=
    optional_encodeOption fun k hk => ⟨h k hk, rfl⟩
  exact .obj (by simp [Keyed.find?_ofList, Keyed.last?, required_iff, TextForm, ItemsForm, htypes,
    hkey])

structure Faithful (Valid : α → Prop) (encode : α → Json) (decode? : Json → Option α)
    (F : α → Form) : Prop where
  exact : Exact decode? F
  written : ∀ a, Valid a → F a (encode a)
  returned : ∀ a, Valid a → decode? (encode a) = some a

theorem Faithful.of {Valid : α → Prop} (hexact : Exact decode? F)
    (hwritten : ∀ a, Valid a → F a (encode a)) : Faithful Valid encode decode? F :=
  ⟨hexact, hwritten, fun a ha => (hexact a _).2 (hwritten a ha)⟩

theorem codec_faithful :
    Faithful (fun _ => True) encodeMember member? MemberForm ∧
      Faithful (fun _ => True) encodeString memberId? TextForm ∧
      Faithful (fun _ => True) encodeStatus status? StatusForm ∧
      Faithful (fun _ => True) encodeInfo info? InfoForm ∧
      Faithful Frame.Valid encodeFrame frame? FrameForm ∧
      Faithful RemoteError.Valid encodeRemote remote? RemoteForm ∧
      Faithful Call.Valid encodeCall call? CallForm :=
  ⟨.of exact_member fun m _ => written_member m,
    .of exact_text fun _ _ => rfl,
    .of exact_status fun _ _ => Or.inl rfl,
    .of exact_info fun i _ => written_info i,
    .of exact_frame fun _ h => written_frame h,
    .of exact_remote fun _ h => written_remote h,
    .of exact_call fun _ h => written_call h⟩

def refusal : RemoteError :=
  .mk "Denied" "no" [⟨"open", none, none⟩, ⟨"close", some "vault.rs", some 7⟩]
    (some (.mk "Locked" "" [] none))

def mixed : Json :=
  .arr
    [.str "Denied", .str "no",
      .arr
        [.obj [("column", .int 3), ("function", .str "open")],
          .arr [.str "close", .str "vault.rs", .int 7]],
      .obj [("frames", .arr []), ("kind", .str "Locked"), ("message", .str ""), ("trace", .null)]]

theorem codec_faithful_of_mixed :
    remote? mixed = some refusal ∧ refusal.Valid ∧
      remote? (encodeRemote refusal) = some refusal := by
  obtain ⟨-, -, -, -, -, hremote, -⟩ := codec_faithful
  have hvalid : refusal.Valid := by
    simp [refusal, RemoteError.Valid, Frame.Valid]
  refine ⟨(hremote.exact _ _).2 ?_, hvalid, hremote.returned _ hvalid⟩
  have hopen : FrameForm ⟨"open", none, none⟩
      (.obj [("column", .int 3), ("function", .str "open")]) :=
    .obj (by simp [Keyed.find?, required_iff, TextForm, Optional.leftOut])
  have hclose : FrameForm ⟨"close", some "vault.rs", some 7⟩
      (.arr [.str "close", .str "vault.rs", .int 7]) :=
    .arr (.cons (.given rfl) (.cons (.given (by simp) rfl)
      (.cons (.given (by simp) ⟨rfl, by decide⟩) .nil)))
  have hcause : RemoteForm (.mk "Locked" "" [] none) (.obj [("frames", .arr []),
      ("kind", .str "Locked"), ("message", .str ""), ("trace", .null)]) := by
    have hframes : Listed FrameForm [] (.arr []) := .arr .nil
    rw [remoteForm_mk]
    exact .obj (by simp [Keyed.find?, required_iff, TextForm, hframes, Optional.leftOut])
  rw [refusal, remoteForm_mk]
  exact .arr (.cons (.given rfl) (.cons (.given rfl) (.cons
    (.given (.arr (.cons hopen (.cons hclose .nil)))) (.cons (.given (by simp) hcause) .nil))))

end Codec

end Switchboard
