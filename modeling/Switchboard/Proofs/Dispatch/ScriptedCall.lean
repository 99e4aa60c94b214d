import Switchboard.Proofs.Dispatch.Timeline

namespace Switchboard

def Traffic.beside (t : Traffic) : List (Nat × (Registry → Registry)) → Traffic
  | [] => t
  | (span, change) :: rest =>
      let t := t.advanceTo (t.world.now + span)
      beside { t with world := t.world.mapRegistry change } rest

def registryAt (r : Registry) (now : Nat) : List (Nat × (Registry → Registry)) → Nat → Registry
  | [], _ => r
  | (span, change) :: rest, tick =>
      if tick ≤ now + span then r else registryAt (change r) (now + span) rest tick

def spans (changes : List (Nat × (Registry → Registry))) : Nat :=
  Traffic.total (changes.map (·.1))

theorem registryAt_now (r : Registry) (now : Nat) (changes : List (Nat × (Registry → Registry))) :
    registryAt r now changes now = r := by
  cases changes with
  | nil => rfl
  | cons e rest => exact if_pos (Nat.le_add_right ..)

variable {s : Scenario} {r : Registry} {w : World} {f : Flight} {n k : Nat}

namespace Scenario

theorem Idle.mapRegistry (h : s.Idle r f w) (change : Registry → Registry) :
    s.Idle (change r) f (w.mapRegistry change) := by
  have hworld : w.mapRegistry change =
      { w with substrate := .scripted (change r) w.script } := by
    have hsub : w.substrate = .scripted r w.script := h.scripted
    unfold World.mapRegistry
    split
    · next r' script hs =>
        rw [hsub] at hs
        cases hs
        rfl
    · next hs =>
        rw [hsub] at hs
        cases hs
  rw [hworld]
  obtain ⟨hinv, -, hstands, hrests⟩ := h
  refine ⟨hinv, rfl, ?_, hrests⟩
  obtain ⟨i, ph⟩ := f
  cases hstands with
  | preparing n hr hs hnow => exact .preparing n hr ⟨hs.cursors, hs.script, hs.submissions⟩ hnow
  | resting n hr hs hbegun hnow =>
      exact .resting n hr ⟨hs.cursors, hs.script, hs.submissions⟩ hbegun hnow
  | settled k hl hs hnow => exact .settled k hl hs hnow
  | waiting n due c hook sub arrival hr hs ht hdue hland hbegun hnow =>
      exact .waiting n due c hook sub arrival hr ⟨hs.cursors, hs.script, hs.submissions⟩ ht hdue
        hland hbegun hnow

theorem Idle.beside (h : s.Idle r f w) (changes : List (Nat × (Registry → Registry)))
    (hmembers : ∀ tick, w.now < tick → s.registry tick = registryAt r w.now changes tick) :
    ∃ w' f' r', (⟨w, [f]⟩ : Traffic).beside changes = ⟨w', [f']⟩ ∧
      w'.now = w.now + spans changes ∧ s.Idle r' f' w' := by
  induction changes generalizing r w f with
  | nil => exact ⟨w, f, r, rfl, rfl, h⟩
  | cons e rest ih =>
      obtain ⟨span, change⟩ := e
      obtain ⟨w₁, f₁, hadvance, hnow, hidle⟩ := h.advanceTo (Nat.le_add_right w.now span)
        fun tick hlt hle => (hmembers tick hlt).trans (if_pos hle)
      have hnow' : (w₁.mapRegistry change).now = w.now + span := by
        rw [← hnow]
        unfold World.mapRegistry
        split <;> rfl
      obtain ⟨w₂, f₂, r₂, hrest, hlast, hend⟩ := ih (hidle.mapRegistry change) fun tick hlt => by
        rw [hnow'] at hlt ⊢
        exact (hmembers tick (by omega)).trans (if_neg (by omega))
      refine ⟨w₂, f₂, r₂, ?_, ?_, hend⟩
      · simp only [Traffic.beside, hadvance]
        exact hrest
      · rw [hlast, hnow']
        simp [spans, Traffic.total, Nat.add_assoc]

theorem now_lt_ends {due : Option Nat} {c : Course} {arrival : Option (Nat × CallResult)}
    {sub : Submission} {hook : Option Interrupt} {now : Nat} (ht : s.trial n = .sent sub arrival)
    (hland : c.landing now due = (arrival.map fun (d, r) => ((s.begins n).1 + d, r)))
    (hrests : Phase.Rests now (.waiting (n + 1) ⟨.course due c, hook⟩ ((s.begins n).1 + s.limit))) :
    now < s.ends n := by
  have hlater : now < (s.begins n).1 + s.limit ∧
      ∀ d x, arrival = some (d, x) → now < (s.begins n).1 + d := by
    cases hrests with
    | never _ _ _ hlt =>
        refine ⟨hlt, ?_⟩
        rintro d x rfl
        cases hland
    | delayed _ _ due ms next _ hdue hlt =>
        refine ⟨hlt, ?_⟩
        rintro d x rfl
        exact Course.lt_landing_delay hdue hland
  rw [ends, ht]
  rcases arrival with _ | ⟨d, x⟩
  · exact hlater.1
  · have hd := hlater.2 d x rfl
    simp only [Trial.ticks]
    omega

theorem Idle.progress (h : s.Idle r f w) (hk : s.Last k) :
    (w.now < s.ends k → f.isSettled = false ∧ ∃ n ≤ k, (s.begins n).1 ≤ w.now ∧
      (n < k → w.now < (s.begins (n + 1)).1) ∧ w.submissions = s.submissions (n + 1)) ∧
    (s.ends k ≤ w.now →
      f = ⟨s.invocation, .settled ((s.trial k).outcome s.invocation (k + 1)) (s.ends k)⟩ ∧
        w.submissions = s.submissions (k + 1)) := by
  obtain ⟨i, ph⟩ := f
  obtain ⟨hinv, -, hstands, hrests⟩ := h
  simp only at hinv hstands hrests
  subst hinv
  cases hstands with
  | preparing n hr hs hnow => cases hrests
  | settled k' hl hs hnow =>
      obtain rfl := hl.unique hk
      exact ⟨fun hlt => absurd hnow (Nat.not_le_of_lt hlt), fun _ => ⟨rfl, hs⟩⟩
  | resting n hr hs hbegun hnow =>
      have hlt : w.now < (s.begins (n + 1)).1 := by
        cases hrests with
        | resting _ _ hlt => exact hlt
      have hle : n + 1 ≤ k := hr.le_of_last hk
      have hbefore : (s.begins (n + 1)).1 ≤ s.ends k :=
        Nat.le_trans (begins_mono hle) (begins_le_ends k)
      refine ⟨fun _ => ⟨rfl, n, by omega, hbegun, fun _ => hlt, hs.submissions⟩, fun hge => ?_⟩
      omega
  | waiting n due c hook sub arrival hr hs ht hdue hland hbegun hnow =>
      have hlt := now_lt_ends ht hland hrests
      have hle : n ≤ k := hr.le_of_last hk
      have hnext : w.now < (s.begins (n + 1)).1 :=
        Nat.lt_of_lt_of_le hlt (Nat.le_trans (Nat.le_add_right ..) (ends_le_begins (Nat.lt_succ_self n)))
      refine ⟨fun _ => ⟨rfl, n, hle, hbegun, fun _ => hnext, hs.submissions⟩, fun hge => ?_⟩
      have hbefore : s.ends n ≤ s.ends k := by
        rcases Nat.eq_or_lt_of_le hle with rfl | hlt
        · exact Nat.le_refl _
        · have hends := ends_le_begins (s := s) hlt
          have hlast := begins_le_ends (s := s) k
          omega
      omega

end Scenario

/-- A call on a script makes attempts one after another until one is not stale or the ceiling is
reached. When the last one, which `k` others precede, comes to its end, the call is settled by it; up
to then it has made the submissions of the attempts that have begun. -/
theorem scripted_call (i : Invocation) (hargs : i.args.length = i.route.signature.arity)
    (hscript : w.Scripted r) (changes : List (Nat × (Registry → Registry))) :
    let s : Scenario :=
      ⟨i, registryAt r w.now changes, w.script, w.now, w.cursors, w.submissions⟩
    let t := ((⟨w, []⟩ : Traffic).launch i).2.beside changes
    ∃ k, (∀ j < k, s.isStale j = true) ∧
      (∀ most, i.retry.maxAttempts = some most → k + 1 ≤ max 1 most) ∧
      (s.isStale k = true ↔ ∃ most, i.retry.maxAttempts = some most ∧ k + 1 = max 1 most ∧
        (s.trial k).outcome i (k + 1) = .error (.retriesExhausted i.qualified (max 1 most))) ∧
      let finish := w.now + Traffic.total ((List.range k).map fun j =>
        (s.trial j).ticks i.route.timeout.ticks + i.retry.backoff.ticks) +
          (s.trial k).ticks i.route.timeout.ticks
      t.world.now = w.now + spans changes ∧
      (t.world.now < finish → ∃ f, t.flights = [f] ∧ f.isSettled = false ∧
        ∃ n ≤ k, (s.begins n).1 ≤ t.world.now ∧ (n < k → t.world.now < (s.begins (n + 1)).1) ∧
          t.world.submissions = s.submissions (n + 1)) ∧
      (finish ≤ t.world.now →
        t.flights = [⟨i, .settled ((s.trial k).outcome i (k + 1)) finish⟩] ∧
          t.world.submissions = s.submissions (k + 1)) := by
  intro s t
  obtain ⟨k, hk⟩ := s.exists_last
  have hexhausted : s.isStale k = true ↔ ∃ most, i.retry.maxAttempts = some most ∧
      k + 1 = max 1 most ∧
        (s.trial k).outcome i (k + 1) = .error (.retriesExhausted i.qualified (max 1 most)) := by
    constructor
    · intro hs
      obtain ⟨most, hm, hmost⟩ := hk.at_ceiling hs
      exact ⟨most, hm, hmost, hmost ▸ (s.outcome_retriesExhausted k (k + 1) _).2 ⟨hs, rfl⟩⟩
    · rintro ⟨most, -, hmost, hout⟩
      rw [← hmost] at hout
      exact ((s.outcome_retriesExhausted k (k + 1) _).1 hout).1
  refine ⟨k, fun j hj => (hk.retried j hj).1, fun most hm => hk.le_ceiling hm, hexhausted, ?_⟩
  intro finish
  have hfinish : s.ends k = finish := by rw [Scenario.ends, Scenario.begins_eq_sum]; rfl
  have hlaunch : Flight.launch i w.now = ⟨i, .preparing 1⟩ := if_pos hargs
  have hstart : s.Stands w (.preparing 1) :=
    .preparing 0 (fun j hj => by cases hj) ⟨rfl, rfl, (List.append_nil _).symm⟩ rfl
  have hidle : s.Idle r ((Flight.launch i w.now).drive (Traffic.driveFuel w) w).1
      ((Flight.launch i w.now).drive (Traffic.driveFuel w) w).2 := by
    rw [hlaunch]
    exact Scenario.Stands.drive rfl hscript hstart (registryAt_now r w.now changes)
  have hnow : ((Flight.launch i w.now).drive (Traffic.driveFuel w) w).2.now = w.now :=
    Flight.now_drive ..
  obtain ⟨w', f', r', ht, hlast, hend⟩ := hidle.beside changes fun tick _ => by rw [hnow]
  have htraffic : t = ⟨w', [f']⟩ := ht
  obtain ⟨hbefore, hafter⟩ := hend.progress hk
  rw [hfinish] at hbefore hafter
  rw [htraffic]
  refine ⟨by rw [hlast, hnow], fun hlt => ?_, fun hge => ?_⟩
  · obtain ⟨hopen, hsent⟩ := hbefore hlt
    exact ⟨f', rfl, hopen, hsent⟩
  · obtain ⟨rfl, hsent⟩ := hafter hge
    exact ⟨rfl, hsent⟩

def patient : Invocation :=
  ⟨"s", "S", ⟨⟨"m", []⟩, .balanced .sticky, .ofMillis 5, false⟩, .standalone 0, [],
    ⟨.ofMillis 2, none⟩, ⟨"f", 1⟩⟩

def staffed : Registry := .ofList [⟨"a", "x", false⟩]

def hesitant : World :=
  .start (.scripted staffed
    [⟨.delay 3 (.result (.error (.memberLeft "a"))), false⟩,
      ⟨.delay 4 (.delay 1 (.result (.ok (.int 7)))), false⟩])

def hesitation : Scenario :=
  ⟨patient, registryAt staffed 0 [(20, id)], hesitant.script, 0, [], []⟩

theorem scripted_call_in_time :
    (((⟨hesitant, []⟩ : Traffic).launch patient).2.beside [(20, id)]).flights =
      [⟨patient, .settled (.ok (.int 7)) 10⟩] := by
  have hargs : patient.args.length = patient.route.signature.arity := rfl
  have hscript : hesitant.Scripted staffed := rfl
  obtain ⟨k, hstale, -, hlast, hnow, -, hafter⟩ :=
    scripted_call patient hargs hscript [(20, id)]
  have hfirst : hesitation.isStale 0 = true := rfl
  have hsecond : hesitation.isStale 1 = false := rfl
  have hone : k = 1 := by
    rcases Nat.lt_trichotomy k 1 with hlt | heq | hgt
    · obtain rfl : k = 0 := by omega
      obtain ⟨most, hmost, -⟩ := hlast.1 hfirst
      cases hmost
    · exact heq
    · have hboth := (hstale 1 hgt).symm.trans hsecond
      cases hboth
  subst hone
  exact (hafter (hnow ▸ (by decide : 10 ≤ 20))).1

end Switchboard
