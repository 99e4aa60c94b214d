import Switchboard.Proofs.Dispatch.Script

namespace Switchboard

variable {s : Scenario} {r : Registry} {w w' : World} {f : Flight} {ph ph' : Phase}

namespace Flight

def budget (w : World) : Phase → Nat
  | .preparing _ => 3 * w.script.length + 2
  | .waiting _ p _ =>
      match w.result? p with
      | some (.ok _) => 1
      | _ => 3 * w.script.length + 4
  | .resting _ _ => 3 * w.script.length + 3
  | .settled _ _ => 0

theorem budget_waiting_of_ok {n : Nat} {p : Pending} {deadline : Nat} {v : Json}
    (h : w.result? p = some (.ok v)) : budget w (.waiting n p deadline) = 1 := by
  rw [budget, h]

theorem budget_waiting_le (w : World) (n : Nat) (p : Pending) (deadline : Nat) :
    budget w (.waiting n p deadline) ≤ 3 * w.script.length + 4 := by
  simp only [budget]
  split <;> omega

theorem budget_le_driveFuel (w : World) (ph : Phase) : budget w ph ≤ Traffic.driveFuel w := by
  cases ph with
  | preparing n =>
      simp only [budget, Traffic.driveFuel]
      omega
  | waiting n p deadline =>
      refine Nat.le_trans (budget_waiting_le w n p deadline) ?_
      simp only [Traffic.driveFuel]
      omega
  | resting n wake =>
      simp only [budget, Traffic.driveFuel]
      omega
  | settled x tick => exact Nat.zero_le _

theorem budget_follow (w : World) (ph : Phase) : budget w (follow w.now ph) ≤ budget w ph := by
  cases ph with
  | waiting n p deadline =>
      obtain ⟨hold, hook⟩ := p
      cases hold with
      | task m => exact Nat.le_refl _
      | course due c =>
          cases c with
          | result x => exact Nat.le_refl _
          | never => exact Nat.le_refl _
          | delay ms next => exact budget_waiting_le ..
  | _ => exact Nat.le_refl _

theorem budget_conclude (i : Invocation) (n : Nat) (w : World) (p : Pending) (deadline : Nat)
    {x : CallResult} (hx : w.result? p = some x) :
    budget w (conclude i n w.now x) < budget w (.waiting n p deadline) := by
  cases x with
  | ok v =>
      rw [budget_waiting_of_ok hx]
      exact Nat.one_pos
  | error e =>
      have hwaiting : budget w (.waiting n p deadline) = 3 * w.script.length + 4 := by
        rw [budget, hx]
      rw [hwaiting]
      cases e with
      | remote e => exact Nat.succ_pos _
      | _ =>
          simp only [conclude]
          split
          · exact Nat.lt_succ_self _
          · exact Nat.succ_pos _

theorem budget_attempt (hscript : w.Scripted r) (i : Invocation) (n : Nat) :
    budget (attempt i n w).2 (attempt i n w).1 < budget w (.preparing n) := by
  cases hx : (i.preparation r w.cursors).1 with
  | error e =>
      obtain ⟨consulted, hattempt⟩ := Scenario.attempt_error hscript hx n
      rw [hattempt]
      exact Nat.succ_pos _
  | ok pair =>
      obtain ⟨call, target⟩ := pair
      obtain ⟨consulted, c, hook, hattempt, -, hempty⟩ := Scenario.attempt_ok hscript hx n
      rw [hattempt]
      cases hs : w.script with
      | nil =>
          rw [hempty hs, budget_waiting_of_ok rfl]
          exact Nat.lt_add_left _ (Nat.lt_succ_self 1)
      | cons next rest =>
          refine Nat.lt_of_le_of_lt (budget_waiting_le ..) ?_
          change 3 * rest.length + 4 < 3 * w.script.length + 2
          rw [hs, List.length_cons]
          omega

theorem step_budget (hscript : w.Scripted r) {i : Invocation}
    (h : step i w ph = some (ph', w')) : budget w' ph' < budget w ph := by
  cases ph with
  | preparing n =>
      have hattempt := budget_attempt hscript i n
      rwa [show attempt i n w = (ph', w') from Option.some.inj h] at hattempt
  | waiting n p deadline =>
      simp only [step] at h
      split at h
      · next x hx =>
          cases h
          exact budget_conclude i n w p deadline hx
      · next hnone =>
          split at h
          · rw [budget, hnone]
            cases h
            exact Nat.succ_pos _
          · cases h
  | resting n wake =>
      simp only [step] at h
      split at h
      · cases h
        exact Nat.lt_succ_self _
      · cases h
  | settled x tick => cases h

end Flight

inductive Phase.Rests (now : Nat) : Phase → Prop
  | never (n deadline : Nat) (hook : Option Interrupt) : now < deadline →
      Rests now (.waiting n ⟨.course none .never, hook⟩ deadline)
  | delayed (n deadline due ms : Nat) (next : Course) (hook : Option Interrupt) : now < due →
      now < deadline → Rests now (.waiting n ⟨.course (some due) (.delay ms next), hook⟩ deadline)
  | resting (n wake : Nat) : now < wake → Rests now (.resting n wake)
  | settled (x : Except DispatchError Json) (tick : Nat) : Rests now (.settled x tick)

theorem Phase.Rests.follow {now : Nat} (h : ph.Rests now) : Flight.follow now ph = ph := by
  cases h with
  | delayed n deadline due ms next hook hdue hlt =>
      simp [Flight.follow, Pending.follow, Course.follow, Nat.not_le_of_lt hdue]
  | _ => rfl

theorem Phase.Rests.step (h : ph.Rests w.now) (i : Invocation) : Flight.step i w ph = none := by
  cases h with
  | never n deadline hook hlt => exact if_neg (Nat.not_le_of_lt hlt)
  | delayed n deadline due ms next hook hdue hlt => exact if_neg (Nat.not_le_of_lt hlt)
  | resting n wake hlt => exact if_neg (Nat.not_le_of_lt hlt)
  | settled x tick => rfl

theorem Phase.Rests.drive (h : f.phase.Rests w.now) (fuel : Nat) : f.drive fuel w = (f, w) := by
  have hstep := h.step f.invocation
  rw [← h.follow] at hstep
  rw [Flight.drive_of_none hstep, h.follow]

theorem Phase.Rests.lt_of_mem_events (h : f.phase.Rests w.now) : ∀ e ∈ f.events, w.now < e := by
  intro e he
  unfold Flight.events at he
  generalize f.phase = ph at h he
  cases h with
  | never n deadline hook hlt => rwa [List.mem_singleton.1 he]
  | delayed n deadline due ms next hook hdue hlt =>
      rcases List.mem_cons.1 he with rfl | he
      · exact hlt
      · rwa [List.mem_singleton.1 he]
  | resting n wake hlt => rwa [List.mem_singleton.1 he]
  | settled x tick => cases he

theorem Phase.Rests.wait {now now' : Nat} (h : f.phase.Rests now)
    (hevents : ∀ e ∈ f.events, now' < e) : f.phase.Rests now' := by
  obtain ⟨i, ph⟩ := f
  cases h with
  | never n deadline hook hlt => exact .never n deadline hook (hevents _ List.mem_cons_self)
  | delayed n deadline due ms next hook hdue hlt =>
      have hlater : now' < due := hevents due (List.mem_cons_of_mem _ (List.mem_singleton_self _))
      exact .delayed n deadline due ms next hook hlater (hevents _ List.mem_cons_self)
  | resting n wake hlt => exact .resting n wake (hevents _ (List.mem_singleton_self _))
  | settled x tick => exact .settled x tick

namespace Scenario

structure Idle (s : Scenario) (r : Registry) (f : Flight) (w : World) : Prop where
  invocation : f.invocation = s.invocation
  scripted : w.Scripted r
  stands : s.Stands w f.phase
  rests : f.phase.Rests w.now

theorem Stands.rests (h : s.Stands w ph) (hfollow : Flight.follow w.now ph = ph)
    (hstep : Flight.step s.invocation w ph = none) : ph.Rests w.now := by
  cases h with
  | preparing n hr hs hnow => cases hstep
  | resting n hr hs hbegun hnow =>
      refine .resting _ _ (Nat.lt_of_not_le fun hle => ?_)
      simp [Flight.step, hle] at hstep
  | settled k hl hs hnow => exact .settled _ _
  | waiting n due c hook sub arrival hr hs ht hdue hland hbegun hnow =>
      have hcourse : c.follow w.now due = (due, c) := by
        simp only [Flight.follow, Pending.follow, Phase.waiting.injEq, Pending.mk.injEq,
          Hold.course.injEq] at hfollow
        exact Prod.ext hfollow.2.1.1.1 hfollow.2.1.1.2
      rcases Course.follow_cases w.now due c with ⟨x, hx⟩ | hx | ⟨d, ms, next, hd, hx⟩
      · cases hcourse.symm.trans hx
        cases hstep
      · cases hcourse.symm.trans hx
        refine .never _ _ _ (Nat.lt_of_not_le fun hle => ?_)
        simp [Flight.step, World.result?, hle] at hstep
      · cases hcourse.symm.trans hx
        refine .delayed _ _ _ _ _ _ hd (Nat.lt_of_not_le fun hle => ?_)
        simp [Flight.step, World.result?, hle] at hstep

theorem Stands.drive_within (fuel : Nat) (hinv : f.invocation = s.invocation) (hscript : w.Scripted r)
    (hstands : s.Stands w f.phase) (hmembers : s.registry w.now = r)
    (hfuel : Flight.budget w f.phase ≤ fuel) :
    s.Idle r (f.drive fuel w).1 (f.drive fuel w).2 := by
  induction fuel generalizing w f with
  | zero =>
      obtain ⟨i, ph⟩ := f
      have hsettled : ∃ x tick, ph = .settled x tick := by
        cases ph with
        | settled x tick => exact ⟨x, tick, rfl⟩
        | preparing n => simp [Flight.budget] at hfuel
        | resting n wake => simp [Flight.budget] at hfuel
        | waiting n p deadline =>
            simp only [Flight.budget] at hfuel
            split at hfuel <;> simp at hfuel
      obtain ⟨x, tick, rfl⟩ := hsettled
      exact ⟨hinv, hscript, hstands, .settled x tick⟩
  | succ fuel ih =>
      have hfollow := hstands.follow
      cases hs : Flight.step f.invocation w (Flight.follow w.now f.phase) with
      | none =>
          rw [Flight.drive_of_none hs]
          exact ⟨hinv, hscript, hfollow,
            hfollow.rests (Flight.follow_follow ..) (hinv ▸ hs)⟩
      | some next =>
          obtain ⟨ph, w'⟩ := next
          have hbudget := Flight.step_budget hscript hs
          have hle := Flight.budget_follow w f.phase
          have hnow := Flight.now_step hs
          obtain ⟨hstands', hscript'⟩ := hfollow.step hscript (Flight.follow_follow ..)
            (fun _ _ => hmembers) (hinv ▸ hs)
          rw [Flight.drive_of_some hs]
          exact ih hinv hscript' hstands' (hnow ▸ hmembers) (by simp only; omega)

theorem Stands.drive (hinv : f.invocation = s.invocation) (hscript : w.Scripted r)
    (hstands : s.Stands w f.phase) (hmembers : s.registry w.now = r) :
    s.Idle r (f.drive (Traffic.driveFuel w) w).1 (f.drive (Traffic.driveFuel w) w).2 :=
  Stands.drive_within _ hinv hscript hstands hmembers (Flight.budget_le_driveFuel ..)

theorem Idle.wait (h : s.Idle r f w) {now : Nat} (hle : w.now ≤ now)
    (hevents : ∀ e ∈ f.events, now ≤ e) : s.Stands { w with now := now } f.phase := by
  obtain ⟨i, ph⟩ := f
  obtain ⟨-, -, hstands, hrests⟩ := h
  cases hstands with
  | preparing n hr hs hnow => cases hrests
  | resting n hr hs hbegun hnow =>
      exact .resting n hr ⟨hs.cursors, hs.script, hs.submissions⟩ (Nat.le_trans hbegun hle)
        (hevents _ (List.mem_singleton_self _))
  | settled k hl hs hnow => exact .settled k hl hs (Nat.le_trans hnow hle)
  | waiting n due c hook sub arrival hr hs ht hdue hland hbegun hnow =>
      have hspent : s.Spent (n + 1) { w with now := now } :=
        ⟨hs.cursors, hs.script, hs.submissions⟩
      have hdeadline : now ≤ (s.begins n).1 + s.limit := hevents _ List.mem_cons_self
      cases hrests with
      | never _ _ _ hlt =>
          exact .waiting n _ _ hook sub arrival hr hspent ht (fun d hd => by cases hd) hland
            (Nat.le_trans hbegun hle) hdeadline
      | delayed _ _ d ms next _ hd hlt =>
          have hlater : now ≤ d := hevents d (List.mem_cons_of_mem _ (List.mem_singleton_self _))
          exact .waiting n _ _ hook sub arrival hr hspent ht
            (fun e he => Option.some.inj he ▸ hlater) hland (Nat.le_trans hbegun hle) hdeadline

theorem Idle.later (h : s.Idle r f w) {now : Nat} (hle : w.now ≤ now)
    (hevents : ∀ e ∈ f.events, now < e) : s.Idle r f { w with now := now } :=
  ⟨h.invocation, h.scripted, h.wait hle fun e he => Nat.le_of_lt (hevents e he),
    h.rests.wait hevents⟩

theorem settle_single (hscript : w.Scripted r)
    (hafter : (f.drive (Traffic.driveFuel w) w).2.Scripted r) :
    (⟨w, [f]⟩ : Traffic).settle =
      ⟨(f.drive (Traffic.driveFuel w) w).2, [(f.drive (Traffic.driveFuel w) w).1]⟩ := by
  have hready : w.runReady = w := by
    simp only [World.runReady, World.mapCluster]
    split
    · next hs =>
        rw [show w.substrate = .scripted r w.script from hscript] at hs
        cases hs
    · rfl
  have hround : (⟨w, [f]⟩ : Traffic).round =
      ⟨(f.drive (Traffic.driveFuel w) w).2, [(f.drive (Traffic.driveFuel w) w).1]⟩ := by
    simp only [Traffic.round, hready, Traffic.driveAll]
  have hdone : (f.drive (Traffic.driveFuel w) w).2.hasReady = false := by
    have hsub : (f.drive (Traffic.driveFuel w) w).2.substrate = .scripted r _ := hafter
    simp [World.hasReady, World.cluster?, hsub]
  rw [Traffic.settle, Traffic.settleFuel]
  simp only [Traffic.settleWithin, hround, hdone]
  simp

theorem events_single (hscript : w.Scripted r) : (⟨w, [f]⟩ : Traffic).events = f.events := by
  have hsub : w.substrate = .scripted r _ := hscript
  simp [Traffic.events, World.wakes, World.cluster?, hsub]

theorem next?_none (h : s.Idle r f w) (hnext : (⟨w, [f]⟩ : Traffic).next? = none) :
    f.events = [] := by
  rw [Traffic.next?, Traffic.nextAfter, events_single h.scripted, List.min?_eq_none_iff,
    List.filter_eq_nil_iff] at hnext
  refine List.eq_nil_iff_forall_not_mem.2 fun e he => ?_
  exact hnext e he (by simpa using h.rests.lt_of_mem_events e he)

theorem next?_some (h : s.Idle r f w) {tick : Nat}
    (hnext : (⟨w, [f]⟩ : Traffic).next? = some tick) :
    w.now < tick ∧ ∀ e ∈ f.events, tick ≤ e := by
  refine ⟨Traffic.now_lt_of_next? hnext, fun e he => ?_⟩
  rw [Traffic.next?, Traffic.nextAfter, events_single h.scripted, List.min?_eq_some_iff] at hnext
  exact hnext.2 e (List.mem_filter.2 ⟨he, by simpa using h.rests.lt_of_mem_events e he⟩)

theorem advanceWithin_idle (fuel : Nat) {target : Nat} (hinv : f.invocation = s.invocation)
    (hscript : w.Scripted r) (hstands : s.Stands w f.phase)
    (hready : f.phase.Rests w.now ∨ s.registry w.now = r)
    (hmembers : ∀ tick, w.now < tick → tick ≤ target → s.registry tick = r)
    (hle : w.now ≤ target) (hfuel : target - w.now < fuel) :
    ∃ w' f', Traffic.advanceWithin fuel target ⟨w, [f]⟩ = ⟨w', [f']⟩ ∧ w'.now = target ∧
      s.Idle r f' w' := by
  induction fuel generalizing w f with
  | zero => omega
  | succ fuel ih =>
      have hidle : s.Idle r (f.drive (Traffic.driveFuel w) w).1
          (f.drive (Traffic.driveFuel w) w).2 := by
        rcases hready with hrests | hnow
        · rw [hrests.drive]
          exact ⟨hinv, hscript, hstands, hrests⟩
        · exact Stands.drive hinv hscript hstands hnow
      have hnow : (f.drive (Traffic.driveFuel w) w).2.now = w.now := Flight.now_drive ..
      have hsettle := settle_single hscript hidle.scripted
      generalize f.drive (Traffic.driveFuel w) w = driven at hidle hnow hsettle
      obtain ⟨f₁, w₁⟩ := driven
      simp only at hidle hnow hsettle
      have hend (hlate : ∀ e ∈ f₁.events, target < e) :
          ∃ w' f', (⟨w₁, [f₁]⟩ : Traffic).setNow target = ⟨w', [f']⟩ ∧ w'.now = target ∧
            s.Idle r f' w' :=
        ⟨_, f₁, rfl, rfl, hidle.later (by omega) hlate⟩
      simp only [Traffic.advanceWithin, hsettle]
      split
      · next tick hnext =>
          obtain ⟨hlt, hfirst⟩ := next?_some hidle hnext
          split
          · next htick =>
              rw [hnow] at hlt
              refine ih (w := { w₁ with now := tick }) hidle.invocation hidle.scripted
                (hidle.wait (by omega) hfirst) (Or.inr (hmembers tick hlt htick)) ?_ htick ?_
              · exact fun later hl hlater => hmembers later (Nat.lt_trans hlt hl) hlater
              · simp only
                omega
          · next htick =>
              exact hend fun e he => Nat.lt_of_lt_of_le (Nat.lt_of_not_le htick) (hfirst e he)
      · next hnext =>
          refine hend fun e he => ?_
          rw [next?_none hidle hnext] at he
          cases he

theorem Idle.advanceTo (h : s.Idle r f w) {target : Nat} (hle : w.now ≤ target)
    (hmembers : ∀ tick, w.now < tick → tick ≤ target → s.registry tick = r) :
    ∃ w' f', (⟨w, [f]⟩ : Traffic).advanceTo target = ⟨w', [f']⟩ ∧ w'.now = target ∧
      s.Idle r f' w' := by
  unfold Traffic.advanceTo
  split
  · next hge => exact ⟨w, f, rfl, Nat.le_antisymm hle hge, h⟩
  · exact advanceWithin_idle _ h.invocation h.scripted h.stands (Or.inl h.rests) hmembers hle
      (Nat.lt_succ_self _)

end Scenario

end Switchboard
