import Switchboard.Proofs.Dispatch.Passage
import Switchboard.Proofs.Interface.KeySource
import Switchboard.Proofs.Interface.Overloads
import Switchboard.Session.Run

namespace Switchboard

inductive Proxy.Answers (p : Proxy) : String → List Json → Json → Prop
  | text : Answers p "to_string" [] (.str p.display)
  | hash : Answers p "hash_code" [] (.int p.hashCode.toNat)
  | equality (v : Json) : Answers p "equals" [v] (.bool (v.asString? = some p.display))

namespace Proxy

variable {p : Proxy} {method : String} {args : List Json} {v : Json} {r : Route} {s : Signature}

theorem ownAnswer?_eq_some : p.ownAnswer? method args = some v ↔ p.Answers method args v := by
  constructor
  · intro h
    unfold ownAnswer? at h
    split at h <;> cases h
    · exact .text
    · exact .hash
    · exact .equality _
  · rintro (_ | _ | _) <;> rfl

theorem ownAnswer?_eq_none (h : ∀ v, ¬p.Answers method args v) :
    p.ownAnswer? method args = none :=
  Option.eq_none_iff_forall_ne_some.2 fun v hv => h v (ownAnswer?_eq_some.1 hv)

theorem lookup_of_one (h : p.table.overloads method args.length = [r]) :
    p.lookup method args = .route r := by
  have hfind : p.table.find method args.length = [r] :=
    List.perm_singleton.1 (h ▸ p.table.find_perm method args.length)
  rw [lookup, hfind]

theorem lookup_of_many (h : 2 ≤ (p.table.overloads method args.length).length) :
    p.lookup method args =
      .failure (.ambiguousMethod p.table.service method args.length) := by
  rw [← (p.table.find_perm method args.length).length_eq] at h
  unfold lookup
  split
  · next r hfind =>
      rw [hfind] at h
      simp at h
  · next hfind =>
      rw [hfind] at h
      simp at h
  · rfl

theorem lookup_of_none (h : p.table.overloads method args.length = []) :
    p.lookup method args =
      match p.ownAnswer? method args with
      | some v => .answer v
      | none => .failure (.unknownMethod p.table.service method args.length) := by
  have hfind : p.table.find method args.length = [] :=
    List.perm_nil.1 (h ▸ p.table.find_perm method args.length)
  cases hown : p.ownAnswer? method args with
  | none => simp only [lookup, hfind, hown]
  | some v => simp only [lookup, hfind, hown]

theorem lookupSignature_undeclared (h : ∀ r ∈ p.table.routes, r.signature ≠ s) :
    p.lookupSignature s = .failure (.unknownMethod p.table.service s.display s.arity) := by
  have hnone : p.table.route? s = none :=
    List.find?_eq_none.2 fun r hr => by simpa using h r hr
  rw [lookupSignature, hnone]

end Proxy

def DispatchError.IsMiscount (e : DispatchError) : Prop :=
  ∃ method expected actual, e = .caller (.argumentCount method expected actual)

variable {i : Invocation} {w : World} {f : Flight} {d : Diary}

theorem KeySpec.resolve_not_argumentCount {spec : KeySpec} {method : String} {args : List Json}
    {ran : List Consulted} {name : String} {expected actual : Nat} :
    spec.resolve method args ≠ (.error (.argumentCount name expected actual), ran) := by
  intro h
  cases resolve_eq_iff.1 h with
  | asked _ hmakes => exact hmakes.ne_argumentCount name expected actual rfl

theorem Invocation.prepare_not_miscount {e : DispatchError} (h : (i.prepare w).1 = .error e) :
    ¬e.IsMiscount := by
  rintro ⟨name, expected, actual, rfl⟩
  have hprep := i.prepares w
  generalize i.prepare w = out at h hprep
  cases hprep with
  | keyless _ hkey =>
      cases h
      exact KeySpec.resolve_not_argumentCount hkey
  | _ => cases h

theorem Invocation.verdict_not_miscount {n : Nat} {r : CallResult} {e : DispatchError}
    (h : i.verdict n r = .error e) : ¬e.IsMiscount := by
  rintro ⟨name, expected, actual, rfl⟩
  cases r with
  | ok v => cases h
  | error x => cases x <;> cases h

theorem Passage.not_miscount (hargs : i.args.length = i.route.signature.arity)
    (h : Passage i w f d) {e : DispatchError} {tick : Nat} (hf : f.phase = .settled (.error e) tick) :
    ¬e.IsMiscount := by
  refine h.invariant (P := fun ph => ∀ e tick, ph = .settled (.error e) tick → ¬e.IsMiscount)
    (fun now e tick hph => ?_) (fun now ph hph e tick he => ?_)
    (fun {w w' ph ph'} hph hgoes e tick he => ?_) e tick hf
  · rw [Flight.launch, if_pos hargs] at hph
    cases hph
  · cases ph with
    | settled r tick' => exact hph e tick he
    | _ => cases he
  · cases hgoes with
    | unprepared hprep =>
        cases he
        exact Invocation.prepare_not_miscount hprep
    | @conclude n deadline p r hr =>
        rcases Flight.conclude_cases i n w.now r with hc | ⟨-, hc⟩
        · rw [hc, Phase.settled.injEq] at he
          exact Invocation.verdict_not_miscount he.1
        · rw [hc] at he
          cases he
    | expire hr hd =>
        cases he
        rintro ⟨name, expected, actual, hno⟩
        cases hno
    | _ => cases he

def Invocation.miscounted (i : Invocation) (now : Nat) : Flight :=
  ⟨i, .settled (.error (.caller (.argumentCount i.qualified i.route.signature.arity
    i.args.length))) now⟩

theorem Traffic.launch_miscounted (t : Traffic) (h : i.args.length ≠ i.route.signature.arity) :
    (t.launch i).2 = { t with flights := t.flights ++ [i.miscounted t.world.now] } := by
  have hlaunch : Flight.launch i t.world.now = i.miscounted t.world.now := if_neg h
  have hidle : (i.miscounted t.world.now).drive (driveFuel t.world) t.world =
      (i.miscounted t.world.now, t.world) := Flight.drive_of_none rfl _
  simp only [Traffic.launch, hlaunch, hidle]

theorem Passage.miscounted (hargs : i.args.length ≠ i.route.signature.arity)
    (h : Passage i w f d) : (∃ now, f = i.miscounted now) ∧ d.obtained = [] := by
  induction h with
  | launch w => exact ⟨⟨w.now, if_neg hargs⟩, rfl⟩
  | elsewhere _ _ ih => exact ih
  | step _ ih =>
      obtain ⟨⟨now, rfl⟩, hnone⟩ := ih
      refine ⟨⟨now, congrArg Prod.fst (Flight.drive_of_none rfl 1)⟩, ?_⟩
      simpa [Diary.add, Invocation.miscounted, Flight.follow, Flight.obtained?] using hnone

namespace Session

variable {s : Session} {p : Proxy} {a : Analyzer} {name : String}

def dispatched (s : Session) (p : Proxy) (r : Route) (args : List Json) : Started × Session :=
  (⟨some p, .flying s.traffic.flights.length⟩,
    { s with traffic := (s.traffic.launch (p.invocation r args s.site)).2 })

def answered (s : Session) (p : Proxy) (x : Except DispatchError Json) : Started × Session :=
  (⟨some p, .answered x⟩, s)

structure Resolves (s : Session) (p : Proxy) (method : String) (args : List Json)
    (out : Started × Session) : Prop where
  one : ∀ r, p.table.overloads method args.length = [r] → out = s.dispatched p r args
  many : 2 ≤ (p.table.overloads method args.length).length →
    out = s.answered p (.error (.ambiguousMethod p.table.service method args.length))
  own : p.table.overloads method args.length = [] → ∀ v, p.Answers method args v →
    out = s.answered p (.ok v)
  unknown : p.table.overloads method args.length = [] → (∀ v, ¬p.Answers method args v) →
    out = s.answered p (.error (.unknownMethod p.table.service method args.length))
  underway : ∀ r, p.table.overloads method args.length = [r] → ∀ es, ∃ f d,
    (out.2.traffic.afterAll es).flights[s.traffic.flights.length]? = some f ∧
      Passage (p.invocation r args s.site) (out.2.traffic.afterAll es).world f d
  counted : ∀ r, p.table.overloads method args.length = [r] →
    ∀ w f d, Passage (p.invocation r args s.site) w f d →
      ∀ e tick, f.phase = .settled (.error e) tick → ¬e.IsMiscount

structure ResolvesExactly (s : Session) (p : Proxy) (signature : Signature) (args : List Json)
    (out : Started × Session) : Prop where
  declared : ∀ r ∈ p.table.routes, r.signature = signature → out = s.dispatched p r args
  undeclared : (∀ r ∈ p.table.routes, r.signature ≠ signature) →
    out = s.answered p
      (.error (.unknownMethod p.table.service signature.display signature.arity))
  miscounted : ∀ r ∈ p.table.routes, r.signature = signature → args.length ≠ signature.arity →
    let i := p.invocation r args s.site
    out.2.world = s.world ∧
      out.2.traffic.flights = s.traffic.flights ++ [i.miscounted s.now] ∧
      ∀ w f d, Passage i w f d → (∃ now, f = i.miscounted now) ∧ d.obtained = []

theorem begin_byName (hp : s.proxy? name = some p) (method : String) (args : List Argument) :
    s.begin ⟨.byName name method, args⟩ =
      let (o, s') := s.viaProxy p (args.map s.argument) (p.lookup method (args.map s.argument))
      (⟨some p, o⟩, s') := by
  simp only [Session.begin, hp]

theorem begin_bySignature (hp : s.proxy? name = some p) (signature : Signature)
    (args : List Argument) :
    s.begin ⟨.bySignature name signature, args⟩ =
      let (o, s') := s.viaProxy p (args.map s.argument) (p.lookupSignature signature)
      (⟨some p, o⟩, s') := by
  simp only [Session.begin, hp]

theorem underway_dispatched (s : Session) (p : Proxy) (r : Route) (args : List Json)
    (es : List Traffic.Event) :
    ∃ f d, ((s.dispatched p r args).2.traffic.afterAll es).flights[s.traffic.flights.length]? =
        some f ∧
      Passage (p.invocation r args s.site) ((s.dispatched p r args).2.traffic.afterAll es).world
        f d := by
  obtain ⟨f, d, hf, h⟩ := Traffic.passage_launch s.traffic (p.invocation r args s.site)
  exact Traffic.passage_afterAll hf h es

theorem resolves (hp : s.proxy? name = some p) (method : String) (args : List Argument) :
    s.Resolves p method (args.map s.argument) (s.begin ⟨.byName name method, args⟩) where
  one r hr := by
    rw [begin_byName hp, Proxy.lookup_of_one hr]
    rfl
  many h := by
    rw [begin_byName hp, Proxy.lookup_of_many h]
    rfl
  own h v hv := by
    rw [begin_byName hp, Proxy.lookup_of_none h, Proxy.ownAnswer?_eq_some.2 hv]
    rfl
  unknown h hno := by
    rw [begin_byName hp, Proxy.lookup_of_none h, Proxy.ownAnswer?_eq_none hno]
    rfl
  underway r hr es := by
    rw [begin_byName hp, Proxy.lookup_of_one hr]
    exact underway_dispatched s p r _ es
  counted r hr w f d h e tick := by
    have hmem : r ∈ p.table.overloads method (args.map s.argument).length :=
      hr ▸ List.mem_singleton_self r
    exact h.not_miscount (RouteTable.mem_overloads.1 hmem).2.2.symm

theorem resolvesExactly (hp : s.proxy? name = some p) (ha : a.analyze p.interface = .ok p.table)
    (signature : Signature) (args : List Argument) :
    s.ResolvesExactly p signature (args.map s.argument)
      (s.begin ⟨.bySignature name signature, args⟩) := by
  have hdeclared (r : Route) (hr : r ∈ p.table.routes) (hs : r.signature = signature) :
      s.begin ⟨.bySignature name signature, args⟩ = s.dispatched p r (args.map s.argument) := by
    have hroute : p.lookupSignature signature = .route r := by
      rw [Proxy.lookupSignature, ← hs, Analyzer.route?_of_analyze ha hr]
    rw [begin_bySignature hp, hroute]
    rfl
  refine ⟨hdeclared, fun h => ?_, fun r hr hs hargs => ?_⟩
  · rw [begin_bySignature hp, Proxy.lookupSignature_undeclared h]
    rfl
  · have hcount : (p.invocation r (args.map s.argument) s.site).args.length ≠ r.signature.arity :=
      hs ▸ hargs
    rw [hdeclared r hr hs]
    simp only [dispatched, world, Traffic.launch_miscounted s.traffic hcount]
    exact ⟨trivial, rfl, fun w f d h => h.miscounted hcount⟩

/-- Calls through a proxy find their routes by name and number of arguments, or by signature; what
finds none, or too many, changes nothing. -/
theorem calls_resolved (hp : s.proxy? name = some p) (ha : a.analyze p.interface = .ok p.table)
    (args : List Argument) :
    (∀ method, s.Resolves p method (args.map s.argument) (s.begin ⟨.byName name method, args⟩)) ∧
      ∀ signature, s.ResolvesExactly p signature (args.map s.argument)
        (s.begin ⟨.bySignature name signature, args⟩) :=
  ⟨fun method => resolves hp method args, fun signature => resolvesExactly hp ha signature args⟩

def clerk : Analyzer := ⟨{}, .builtin, .ofMillis 60000⟩

def ledgerDesk : Interface :=
  .mk "bank::Ledger" true []
    [⟨"find", [⟨"key", "String", none⟩], [.balanced "random" ⟨none, false⟩]⟩,
      ⟨"find", [⟨"key", "Long", none⟩], [.balanced "random" ⟨none, false⟩]⟩,
      ⟨"to_string", [], [.balanced "random" ⟨none, false⟩]⟩,
      ⟨"hash_code", [⟨"key", "String", none⟩], [.balanced "random" ⟨none, false⟩]⟩]

def ledgerRoute (method : String) (types : List String) : Route :=
  ⟨⟨method, types⟩, .balanced .random, .ofMillis 60000, false⟩

def ledgerProxy : Proxy :=
  ⟨1, ledgerDesk, ⟨"bank::Ledger", "Ledger", [ledgerRoute "find" ["String"],
    ledgerRoute "find" ["Long"], ledgerRoute "to_string" [], ledgerRoute "hash_code" ["String"]]⟩,
    "default", .standard, .scatter⟩

def atLedger : Session :=
  { start (.scripted (.ofList [⟨"a", "x", false⟩]) []) {} .builtin ⟨"f", 1⟩ with
    proxies := [("ledger", ledgerProxy)] }

theorem calls_resolved_at_ledger :
    let find := ledgerRoute "find" ["Long"]
    atLedger.begin ⟨.byName "ledger" "find", [.value (.int 1)]⟩ =
        atLedger.answered ledgerProxy (.error (.ambiguousMethod "Ledger" "find" 1)) ∧
      atLedger.begin ⟨.byName "ledger" "to_string", []⟩ =
        atLedger.dispatched ledgerProxy (ledgerRoute "to_string" []) [] ∧
      atLedger.begin ⟨.byName "ledger" "hash_code", []⟩ =
        atLedger.answered ledgerProxy (.ok (.int ledgerProxy.hashCode.toNat)) ∧
      atLedger.begin ⟨.byName "ledger" "equals", []⟩ =
        atLedger.answered ledgerProxy (.error (.unknownMethod "Ledger" "equals" 0)) ∧
      atLedger.begin ⟨.bySignature "ledger" find.signature, [.value (.int 1)]⟩ =
        atLedger.dispatched ledgerProxy find [.int 1] ∧
      (atLedger.begin ⟨.bySignature "ledger" find.signature, []⟩).2.world = atLedger.world := by
  intro find
  have hp : atLedger.proxy? "ledger" = some ledgerProxy := rfl
  have ha : clerk.analyze ledgerProxy.interface = .ok ledgerProxy.table := by with_unfolding_all rfl
  have hfind : find ∈ ledgerProxy.table.routes := by simp [ledgerProxy, find]
  obtain ⟨hnamed, hexact⟩ := calls_resolved hp ha []
  obtain ⟨hargument, hargumentExact⟩ := calls_resolved hp ha [.value (.int 1)]
  refine ⟨?_, ?_, ?_, ?_, ?_, ?_⟩
  · exact (hargument "find").many (by decide)
  · exact (hnamed "to_string").one _ rfl
  · exact (hnamed "hash_code").own rfl _ .hash
  · refine (hnamed "equals").unknown rfl fun v hv => ?_
    have hnone : ledgerProxy.ownAnswer? "equals" [] = none := rfl
    cases hnone.symm.trans (Proxy.ownAnswer?_eq_some.2 hv)
  · exact (hargumentExact find.signature).declared find hfind rfl
  · exact ((hexact find.signature).miscounted find hfind rfl (by decide)).1

end Session

end Switchboard
