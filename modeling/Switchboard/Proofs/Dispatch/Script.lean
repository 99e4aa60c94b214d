import Switchboard.Proofs.Dispatch.Run
import Switchboard.Proofs.Dispatch.Scenario

namespace Switchboard

namespace Course

/-- The result that a course comes to if it is followed without a pause, and the tick at which it
does; a delay that has been reached is over at the tick `due`. -/
def landing (now : Nat) (due : Option Nat) : Course → Option (Nat × CallResult)
  | delay ms next => next.arrival.map fun (d, r) => (due.getD (now + ms) + d, r)
  | c => c.arrival.map fun (d, r) => (now + d, r)

theorem landing_none (now : Nat) (c : Course) :
    c.landing now none = c.arrival.map fun (d, r) => (now + d, r) := by
  cases c with
  | delay ms next =>
      simp only [landing, arrival, Option.map_map, Option.getD_none]
      congr 1
      funext ⟨d, r⟩
      simp [Nat.add_assoc]
  | _ => rfl

theorem follow_cases (now : Nat) (due : Option Nat) (c : Course) :
    (∃ r, c.follow now due = (none, result r)) ∨ c.follow now due = (none, never) ∨
      ∃ d ms next, now < d ∧ c.follow now due = (some d, delay ms next) := by
  induction c generalizing due with
  | result r => exact Or.inl ⟨r, rfl⟩
  | never => exact Or.inr (Or.inl rfl)
  | delay ms next ih =>
      by_cases h : due.getD (now + ms) ≤ now
      · have hnext : (delay ms next).follow now due = next.follow now none := by simp [follow, h]
        rw [hnext]
        exact ih none
      · exact Or.inr (Or.inr ⟨_, ms, next, Nat.lt_of_not_le h, by simp [follow, h]⟩)

theorem lt_landing_delay {now due ms tick : Nat} {next : Course} {x : CallResult} (h : now < due)
    (hland : (delay ms next).landing now (some due) = some (tick, x)) : now < tick := by
  obtain ⟨⟨d, y⟩, -, heq⟩ := Option.map_eq_some_iff.1 hland
  have htick : due + d = tick := congrArg Prod.fst heq
  omega

theorem lt_landing {now : Nat} {due : Option Nat} {c : Course} (hfollow : c.follow now due = (due, c))
    (hc : ∀ x, c ≠ result x) {tick : Nat} {x : CallResult}
    (hland : c.landing now due = some (tick, x)) : now < tick := by
  rcases follow_cases now due c with ⟨y, hy⟩ | hy | ⟨d, ms, next, hlt, hy⟩
  · exact absurd (congrArg Prod.snd (hfollow.symm.trans hy)) (hc y)
  · cases hfollow.symm.trans hy
    cases hland
  · cases hfollow.symm.trans hy
    exact lt_landing_delay hlt hland

theorem landing_follow {now : Nat} {due : Option Nat} (h : ∀ d, due = some d → now ≤ d)
    (c : Course) :
    (c.follow now due).2.landing now (c.follow now due).1 = c.landing now due := by
  induction c generalizing due with
  | result r => rfl
  | never => rfl
  | delay ms next ih =>
      by_cases hr : due.getD (now + ms) ≤ now
      · have hnext : (delay ms next).follow now due = next.follow now none := by simp [follow, hr]
        have hnow : due.getD (now + ms) = now := by
          cases due with
          | none => simp at hr ⊢; omega
          | some d => exact Nat.le_antisymm hr (h d rfl)
        rw [hnext, ih (fun d hd => by cases hd), landing_none, landing, hnow]
      · simp [follow, hr, landing]

end Course

def World.Scripted (w : World) (r : Registry) : Prop := w.substrate = .scripted r w.script

namespace Scenario

variable {s : Scenario} {n k : Nat} {w w' : World} {ph ph' : Phase}

structure Spent (s : Scenario) (n : Nat) (w : World) : Prop where
  cursors : w.cursors = (s.begins n).2
  script : w.script = s.script.drop n
  submissions : w.submissions = s.submissions n

inductive Stands (s : Scenario) (w : World) : Phase → Prop
  | preparing (n : Nat) : s.Retried n → s.Spent n w → w.now = (s.begins n).1 →
      Stands s w (.preparing (n + 1))
  | waiting (n : Nat) (due : Option Nat) (c : Course) (hook : Option Interrupt) (sub : Submission)
      (arrival : Option (Nat × CallResult)) : s.Retried n → s.Spent (n + 1) w →
      s.trial n = .sent sub arrival → (∀ d, due = some d → w.now ≤ d) →
      c.landing w.now due = (arrival.map fun (d, r) => ((s.begins n).1 + d, r)) →
      (s.begins n).1 ≤ w.now → w.now ≤ (s.begins n).1 + s.limit →
      Stands s w (.waiting (n + 1) ⟨.course due c, hook⟩ ((s.begins n).1 + s.limit))
  | resting (n : Nat) : s.Retried (n + 1) → s.Spent (n + 1) w → (s.begins n).1 ≤ w.now →
      w.now ≤ (s.begins (n + 1)).1 → Stands s w (.resting (n + 1) (s.begins (n + 1)).1)
  | settled (k : Nat) : s.Last k → w.submissions = s.submissions (k + 1) → s.ends k ≤ w.now →
      Stands s w (.settled ((s.trial k).outcome s.invocation (k + 1)) (s.ends k))

theorem Stands.follow (h : Stands s w ph) : Stands s w (Flight.follow w.now ph) := by
  cases h with
  | preparing n hr hs hnow => exact .preparing n hr hs hnow
  | resting n hr hs hbegun hnow => exact .resting n hr hs hbegun hnow
  | settled k hl hs hnow => exact .settled k hl hs hnow
  | waiting n due c hook sub arrival hr hs ht hdue hland hbegun hnow =>
      refine .waiting n _ _ hook sub arrival hr hs ht ?_ ?_ hbegun hnow
      · intro d hd
        rcases Course.follow_cases w.now due c with ⟨r, hc⟩ | hc | ⟨d', ms, next, hlt, hc⟩
        · rw [hc] at hd
          cases hd
        · rw [hc] at hd
          cases hd
        · rw [hc] at hd
          cases hd
          exact Nat.le_of_lt hlt
      · rw [Course.landing_follow hdue, hland]

variable {r : Registry}

theorem prepare_eq (i : Invocation) (hscript : w.Scripted r) :
    ∃ consulted, i.prepare w = ((i.preparation r w.cursors).1,
      { w with cursors := (i.preparation r w.cursors).2, consulted := consulted }) := by
  have halive : w.alive = r.alive := by
    rw [World.alive, show w.substrate = .scripted r w.script from hscript]
    rfl
  unfold Invocation.preparation Invocation.prepare
  rw [halive]
  split
  · cases hx : (KeySpec.resolve _ i.qualified i.args) with
    | mk key ran => cases key <;> exact ⟨_, rfl⟩
  · next p _ =>
      cases hx : p.choose r.alive i.call (w.cursors.get i.policy) with
      | mk choice cursor => cases choice <;> simp [World.alive, Substrate.alive, hx]

theorem place_scripted (r : Registry) (script : List ScriptedCall) (call : Call)
    (target : Option Member) :
    ∃ c hook, World.place (.scripted r script) call target =
        (⟨.course none c, hook⟩, .scripted r script.tail) ∧
      c.arrival = (script.head?.elim (some (0, .ok .null)) fun next => next.course.arrival) ∧
      (script = [] → c = .result (.ok .null)) := by
  cases script with
  | nil => exact ⟨.result (.ok .null), none, rfl, rfl, fun _ => rfl⟩
  | cons next rest => exact ⟨next.course, _, rfl, rfl, fun h => by cases h⟩

theorem attempt_error {i : Invocation} {e : DispatchError} (hscript : w.Scripted r)
    (he : (i.preparation r w.cursors).1 = .error e) (m : Nat) :
    ∃ consulted, Flight.attempt i m w = (.settled (.error e) w.now,
      { w with cursors := (i.preparation r w.cursors).2, consulted := consulted }) := by
  obtain ⟨consulted, hprep⟩ := prepare_eq i hscript
  rw [he] at hprep
  exact ⟨consulted, by rw [Flight.attempt, hprep]⟩

theorem attempt_ok {i : Invocation} {call : Call} {target : Option Member}
    (hscript : w.Scripted r)
    (hok : (i.preparation r w.cursors).1 = .ok (call, target)) (m : Nat) :
    ∃ consulted c hook, Flight.attempt i m w =
        (.waiting m ⟨.course none c, hook⟩ (w.now + i.route.timeout.ticks),
          { w with
            substrate := .scripted r w.script.tail
            cursors := (i.preparation r w.cursors).2
            consulted := consulted
            submissions := w.submissions ++ [⟨call, target⟩] }) ∧
      c.arrival = (w.script.head?.elim (some (0, .ok .null)) fun next => next.course.arrival) ∧
      (w.script = [] → c = .result (.ok .null)) := by
  obtain ⟨consulted, hprep⟩ := prepare_eq i hscript
  obtain ⟨c, hook, hplace, harrival, hempty⟩ := place_scripted r w.script call target
  rw [hok] at hprep
  refine ⟨consulted, c, hook, ?_, harrival, hempty⟩
  rw [Flight.attempt, hprep]
  simp only [World.submit, show w.substrate = .scripted r w.script from hscript, hplace]

theorem interrupt_scripted (hscript : w.Scripted r) (p : Pending) :
    ∃ count, (w.interrupt p).2 = { w with interrupted := count } := by
  unfold World.interrupt
  split
  · next h _ =>
      cases h with
      | count => exact ⟨_, rfl⟩
      | abort m =>
          refine ⟨w.interrupted, ?_⟩
          change w.mapCluster _ = w
          unfold World.mapCluster
          split
          · next hs =>
              rw [show w.substrate = .scripted r w.script from hscript] at hs
              cases hs
          · rfl
  · exact ⟨_, rfl⟩

theorem Stands.settle (hr : s.Retried k)
    (hf : ¬(s.isStale k = true ∧ s.invocation.retry.allowsAnother (k + 1) = true))
    (hsub : w.submissions = s.submissions (k + 1)) (hnow : w.now = s.ends k)
    {x : Except DispatchError Json} (hx : x = (s.trial k).outcome s.invocation (k + 1)) :
    Stands s w (.settled x w.now) := by
  rw [hx, hnow]
  exact .settled k ⟨hr, hf⟩ hsub (Nat.le_of_eq hnow.symm)

theorem stands_attempt (hscript : w.Scripted r) (hr : s.Retried n) (hs : s.Spent n w)
    (hnow : w.now = (s.begins n).1) (hmembers : s.registry w.now = r) :
    Stands s (Flight.attempt s.invocation (n + 1) w).2
        (Flight.attempt s.invocation (n + 1) w).1 ∧
      (Flight.attempt s.invocation (n + 1) w).2.Scripted r := by
  have hpreparation : s.invocation.preparation r w.cursors =
      s.invocation.preparation (s.registry (s.begins n).1) (s.begins n).2 := by
    rw [hs.cursors, ← hmembers, hnow]
  have htrial : s.trial n = s.trialFrom n (s.begins n).1 (s.begins n).2 := rfl
  rw [trialFrom, ← hpreparation] at htrial
  have hcursors : (s.invocation.preparation r w.cursors).2 = (s.begins (n + 1)).2 := by
    rw [hpreparation]
    rfl
  cases hx : (s.invocation.preparation r w.cursors).1 with
  | error e =>
      rw [hx] at htrial
      have hstale : s.isStale n = false := by rw [isStale, htrial]; rfl
      have hends : w.now = s.ends n := by rw [ends, htrial]; exact hnow
      obtain ⟨consulted, hattempt⟩ := attempt_error hscript hx (n + 1)
      rw [hattempt]
      refine ⟨Stands.settle (w := { w with cursors := _, consulted := consulted }) hr
        (by simp [hstale]) ?_ hends ?_, hscript⟩
      · rw [submissions_succ, htrial]
        simpa [Trial.submission?] using hs.submissions
      · rw [htrial]
        rfl
  | ok pair =>
      obtain ⟨call, target⟩ := pair
      rw [hx] at htrial
      obtain ⟨consulted, c, hook, hattempt, hc, -⟩ := attempt_ok hscript hx (n + 1)
      rw [hattempt, hcursors, hnow]
      refine ⟨?_, rfl⟩
      refine .waiting n none c hook ⟨call, target⟩ _ hr ⟨rfl, ?_, ?_⟩ htrial
        (fun d hd => by cases hd) ?_ (Nat.le_refl _) ?_
      · rw [← List.tail_drop, ← hs.script]
        rfl
      · rw [submissions_succ, htrial, ← hs.submissions]
        rfl
      · rw [Course.landing_none, hc, hs.script, List.head?_drop]
      · exact Nat.le_add_right ..

theorem isStale_of_answer {e : CallFailure}
    (h : (s.trial n).answer? s.limit = some (.error e)) : s.isStale n = e.isStale := by
  rw [isStale, Trial.isStale, h]

theorem stands_answer {x : CallResult} (hr : s.Retried n) (hs : s.Spent (n + 1) w)
    (hx : (s.trial n).answer? s.limit = some x) (hnow : w.now = s.ends n) :
    Stands s w (Flight.conclude s.invocation (n + 1) w.now x) := by
  have houtcome := Trial.outcome_of_answer (i := s.invocation) hx (n + 1)
  cases x with
  | ok v =>
      have hstale : s.isStale n = false := by rw [isStale, Trial.isStale, hx]
      exact Stands.settle hr (by simp [hstale]) hs.submissions hnow houtcome.symm
  | error e =>
      have hstale := isStale_of_answer hx
      have hagain (hne : e.isStale = true) :
          Stands s w (if s.invocation.retry.allowsAnother (n + 1) then
              .resting (n + 1) (w.now + s.invocation.retry.backoff.ticks)
            else .settled (.error (.retriesExhausted s.invocation.qualified (n + 1))) w.now) := by
        split
        · next ha =>
            have hwake : w.now + s.invocation.retry.backoff.ticks = (s.begins (n + 1)).1 := by
              rw [hnow]
              rfl
            rw [hwake]
            exact .resting n (hr.succ (hstale.trans hne) ha) hs
              (hnow ▸ begins_le_ends n) (by omega)
        · next ha =>
            refine Stands.settle hr (fun hboth => ha hboth.2) hs.submissions hnow ?_
            rw [houtcome]
            cases e with
            | remote e => cases hne
            | _ => rfl
      cases e with
      | remote e =>
          exact Stands.settle hr (by simp [hstale, CallFailure.isStale]) hs.submissions hnow
            houtcome.symm
      | _ => exact hagain rfl

theorem stands_conclude {p : Pending} {deadline : Nat} {x : CallResult}
    (h : Stands s w (.waiting (n + 1) p deadline)) (hx : w.result? p = some x) :
    Stands s w (Flight.conclude s.invocation (n + 1) w.now x) := by
  cases h with
  | waiting n due c hook sub arrival hr hs ht hdue hland hbegun hnow =>
      cases c with
      | never => cases hx
      | delay ms next => cases hx
      | result y =>
          cases hx
          obtain ⟨⟨d, y⟩, rfl, heq⟩ := Option.map_eq_some_iff.1 hland.symm
          obtain ⟨hd, rfl⟩ : (s.begins n).1 + d = w.now ∧ y = x := by simpa using heq
          have hle : d ≤ s.limit := by omega
          refine stands_answer hr hs ?_ ?_
          · simp [ht, Trial.answer?, hle]
          · simp [ends, ht, Trial.ticks, hle, hd]

theorem stands_expire {p : Pending} {deadline : Nat} (hscript : w.Scripted r)
    (h : Stands s w (.waiting (n + 1) p deadline))
    (hfollow : p.follow w.now = p) (hnone : w.result? p = none) (hdue : deadline ≤ w.now) :
    Stands s (Flight.expire s.invocation p w).2 (Flight.expire s.invocation p w).1 ∧
      (Flight.expire s.invocation p w).2.Scripted r := by
  cases h with
  | waiting n due c hook sub arrival hr hs ht hdues hland hbegun hnow =>
      have hcourse : c.follow w.now due = (due, c) := by
        have hhold := congrArg Pending.hold hfollow
        simp only [Pending.follow, Hold.course.injEq] at hhold
        exact Prod.ext hhold.1 hhold.2
      have hc : ∀ x, c ≠ .result x := by
        rintro x rfl
        cases hnone
      have hlater : ∀ d x, arrival = some (d, x) → w.now < (s.begins n).1 + d := by
        rintro d x rfl
        exact Course.lt_landing hcourse hc hland
      have hanswer : (s.trial n).answer? s.limit = none := by
        rw [ht]
        rcases arrival with _ | ⟨d, x⟩
        · rfl
        · have hd := hlater d x rfl
          simp only [Trial.answer?]
          rw [if_neg (by omega)]
      have hends : w.now = s.ends n := by
        rw [ends, ht]
        rcases arrival with _ | ⟨d, x⟩
        · simp only [Trial.ticks]
          omega
        · have hd := hlater d x rfl
          simp only [Trial.ticks]
          omega
      have hstale : s.isStale n = false := by rw [isStale, Trial.isStale, hanswer]
      have hsettled (count : Nat) : Stands s { w with interrupted := count }
          (.settled (.error (.timeout s.invocation.qualified s.invocation.route.timeout)) w.now) := by
        refine Stands.settle (w := { w with interrupted := count }) hr (by simp [hstale])
          hs.submissions hends ?_
        rw [ht] at hanswer ⊢
        rw [Trial.outcome, show s.invocation.route.timeout.ticks = s.limit from rfl, hanswer]
      simp only [Flight.expire]
      split
      · obtain ⟨count, hcount⟩ := interrupt_scripted hscript ⟨.course due c, hook⟩
        rw [hcount]
        exact ⟨hsettled count, hscript⟩
      · exact ⟨hsettled w.interrupted, hscript⟩

theorem Stands.step (h : Stands s w ph) (hscript : w.Scripted r)
    (hfollow : Flight.follow w.now ph = ph)
    (hmembers : ∀ m, ph = .preparing m → s.registry w.now = r)
    (hstep : Flight.step s.invocation w ph = some (ph', w')) :
    Stands s w' ph' ∧ w'.Scripted r := by
  cases ph with
  | preparing m =>
      have hattempt : Flight.attempt s.invocation m w = (ph', w') := Option.some.inj hstep
      cases h with
      | preparing n hr hs hnow =>
          have hboth := stands_attempt hscript hr hs hnow (hmembers _ rfl)
          rwa [hattempt] at hboth
  | waiting m p deadline =>
      obtain ⟨n, rfl⟩ : ∃ n, m = n + 1 := by
        cases h with
        | waiting n => exact ⟨n, rfl⟩
      simp only [Flight.step] at hstep
      split at hstep
      · next x hx =>
          cases hstep
          exact ⟨stands_conclude h hx, hscript⟩
      split at hstep
      · next hnone hdue =>
          have hexpire : Flight.expire s.invocation p w = (ph', w') := Option.some.inj hstep
          have hp : p.follow w.now = p := by simpa [Flight.follow] using hfollow
          have hboth := stands_expire hscript h hp hnone hdue
          rwa [hexpire] at hboth
      · cases hstep
  | resting m wake =>
      simp only [Flight.step] at hstep
      split at hstep
      · next hwake =>
          cases hstep
          cases h with
          | resting n hr hs hbegun hnow =>
              exact ⟨.preparing (n + 1) hr hs (Nat.le_antisymm hnow hwake), hscript⟩
      · cases hstep
  | settled x tick => cases hstep

end Scenario

end Switchboard
