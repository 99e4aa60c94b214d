import Mathlib.Data.Nat.Find
import Switchboard.Dispatch.Traffic
import Switchboard.Proofs.Dispatch.Preparation

namespace Switchboard

def Course.arrival : Course → Option (Nat × CallResult)
  | result r => some (0, r)
  | never => none
  | delay ms next => next.arrival.map fun (d, r) => (ms + d, r)

def Invocation.preparation (i : Invocation) (r : Registry) (cs : Cursors) :
    Except DispatchError (Call × Option Member) × Cursors :=
  let (x, w) := i.prepare ⟨0, .scripted r [], cs, 0, 0, []⟩
  (x, w.cursors)

def Invocation.verdict (i : Invocation) (n : Nat) : CallResult → Except DispatchError Json
  | .ok v => .ok v
  | .error (.remote e) => .error (.remote (e.stitch (i.site.frames i.qualified)))
  | .error _ => .error (.retriesExhausted i.qualified n)

/-- What one attempt meets: an error of its preparation, or the result of its submission, which
arrives after some ticks or never. -/
inductive Trial where
  | unprepared (e : DispatchError)
  | sent (s : Submission) (arrival : Option (Nat × CallResult))

namespace Trial

def submission? : Trial → Option Submission
  | unprepared _ => none
  | sent s _ => some s

def answer? (limit : Nat) : Trial → Option CallResult
  | sent _ (some (d, r)) => if d ≤ limit then some r else none
  | _ => none

def ticks (limit : Nat) : Trial → Nat
  | unprepared _ => 0
  | sent _ (some (d, _)) => min d limit
  | sent _ none => limit

def isStale (limit : Nat) (t : Trial) : Bool :=
  match t.answer? limit with
  | some (.error e) => e.isStale
  | _ => false

def outcome (i : Invocation) (n : Nat) : Trial → Except DispatchError Json
  | unprepared e => .error e
  | sent s arrival =>
      match (sent s arrival).answer? i.route.timeout.ticks with
      | none => .error (.timeout i.qualified i.route.timeout)
      | some r => i.verdict n r

theorem outcome_of_answer {i : Invocation} {t : Trial} {r : CallResult}
    (h : t.answer? i.route.timeout.ticks = some r) (n : Nat) : t.outcome i n = i.verdict n r := by
  cases t with
  | unprepared e => cases h
  | sent s arrival => rw [outcome, h]

end Trial

/-- All that decides how a call goes: the members at each tick, the courses of its submissions one
after another, and what there is when it starts. -/
structure Scenario where
  invocation : Invocation
  registry : Nat → Registry
  script : List ScriptedCall
  start : Nat
  cursors : Cursors
  submitted : List Submission

namespace Scenario

variable (s : Scenario)

def limit : Nat := s.invocation.route.timeout.ticks

def backoff : Nat := s.invocation.retry.backoff.ticks

def trialFrom (n tick : Nat) (cs : Cursors) : Trial :=
  match (s.invocation.preparation (s.registry tick) cs).1 with
  | .error e => .unprepared e
  | .ok (call, target) =>
      .sent ⟨call, target⟩
        ((s.script[n]?).elim (some (0, .ok .null)) fun next => next.course.arrival)

def begins : Nat → Nat × Cursors
  | 0 => (s.start, s.cursors)
  | n + 1 =>
      let (tick, cs) := begins n
      (tick + (s.trialFrom n tick cs).ticks s.limit + s.backoff,
        (s.invocation.preparation (s.registry tick) cs).2)

def trial (n : Nat) : Trial := s.trialFrom n (s.begins n).1 (s.begins n).2

def isStale (n : Nat) : Bool := (s.trial n).isStale s.limit

def ends (n : Nat) : Nat := (s.begins n).1 + (s.trial n).ticks s.limit

def submissions (n : Nat) : List Submission :=
  s.submitted ++ (List.range n).filterMap fun j => (s.trial j).submission?

def Retried (n : Nat) : Prop :=
  ∀ j < n, s.isStale j = true ∧ s.invocation.retry.allowsAnother (j + 1) = true

structure Last (k : Nat) : Prop where
  retried : s.Retried k
  final : ¬(s.isStale k = true ∧ s.invocation.retry.allowsAnother (k + 1) = true)

variable {s} {n k : Nat}

theorem begins_succ (n : Nat) :
    s.begins (n + 1) = (s.ends n + s.backoff,
      (s.invocation.preparation (s.registry (s.begins n).1) (s.begins n).2).2) := rfl

theorem begins_mono (h : n ≤ k) : (s.begins n).1 ≤ (s.begins k).1 := by
  induction h with
  | refl => exact Nat.le_refl _
  | step _ ih =>
      refine Nat.le_trans ih ?_
      rw [begins_succ, ends]
      omega

theorem ends_le_begins (h : n < k) : s.ends n + s.backoff ≤ (s.begins k).1 := by
  have hle := begins_mono (s := s) (Nat.succ_le_of_lt h)
  rwa [begins_succ] at hle

theorem begins_le_ends (n : Nat) : (s.begins n).1 ≤ s.ends n := Nat.le_add_right ..

theorem total_append (l l' : List Nat) :
    Traffic.total (l ++ l') = Traffic.total l + Traffic.total l' := by
  induction l with
  | nil => exact (Nat.zero_add _).symm
  | cons n l ih =>
      change n + Traffic.total (l ++ l') = n + Traffic.total l + Traffic.total l'
      rw [ih, Nat.add_assoc]

theorem begins_eq_sum (n : Nat) :
    (s.begins n).1 =
      s.start +
        Traffic.total ((List.range n).map fun j => (s.trial j).ticks s.limit + s.backoff) := by
  induction n with
  | zero => rfl
  | succ n ih =>
      rw [begins_succ, ends, ih, List.range_succ, List.map_append, total_append]
      simp [Traffic.total, Nat.add_assoc]

theorem submissions_succ (n : Nat) :
    s.submissions (n + 1) = s.submissions n ++ (s.trial n).submission?.toList := by
  rw [submissions, submissions, List.range_succ, List.filterMap_append, List.append_assoc]
  cases h : (s.trial n).submission? <;> simp [h]

theorem Retried.le_of_last (hn : s.Retried n) (hk : s.Last k) : n ≤ k := by
  refine Nat.le_of_not_lt fun hlt => ?_
  exact hk.final (hn k hlt)

theorem Retried.succ (h : s.Retried n) (hs : s.isStale n = true)
    (ha : s.invocation.retry.allowsAnother (n + 1) = true) : s.Retried (n + 1) := by
  intro j hj
  rcases Nat.lt_succ_iff_lt_or_eq.1 hj with hj | rfl
  · exact h j hj
  · exact ⟨hs, ha⟩

theorem Last.unique (h : s.Last n) (h' : s.Last k) : n = k :=
  Nat.le_antisymm (h.retried.le_of_last h') (h'.retried.le_of_last h)

theorem isStale_script_end (s : Scenario) : s.isStale s.script.length = false := by
  unfold isStale trial trialFrom
  split
  · rfl
  · simp [Trial.isStale, Trial.answer?]

theorem exists_last (s : Scenario) : ∃ k, s.Last k := by
  have hstop : ∃ k, ¬(s.isStale k = true ∧ s.invocation.retry.allowsAnother (k + 1) = true) :=
    ⟨s.script.length, by simp [isStale_script_end]⟩
  classical
  refine ⟨Nat.find hstop, fun j hj => ?_, Nat.find_spec hstop⟩
  exact not_not.1 (Nat.find_min hstop hj)

theorem Last.le_ceiling (h : s.Last k) {most : Nat}
    (hm : s.invocation.retry.maxAttempts = some most) : k + 1 ≤ max 1 most := by
  cases k with
  | zero => exact Nat.le_max_left ..
  | succ k =>
      have hallowed := (h.retried k (Nat.lt_succ_self k)).2
      have hlt : k + 1 < most := by simpa [RetryPolicy.allowsAnother, hm] using hallowed
      exact Nat.le_trans hlt (Nat.le_max_right ..)

theorem Last.at_ceiling (h : s.Last k) (hs : s.isStale k = true) :
    ∃ most, s.invocation.retry.maxAttempts = some most ∧ k + 1 = max 1 most := by
  have hno : s.invocation.retry.allowsAnother (k + 1) = false := by
    simpa [hs] using h.final
  cases hm : s.invocation.retry.maxAttempts with
  | none => simp [RetryPolicy.allowsAnother, hm] at hno
  | some most =>
      have hge : most ≤ k + 1 := by simpa [RetryPolicy.allowsAnother, hm] using hno
      have hle := h.le_ceiling hm
      exact ⟨most, rfl, by omega⟩

theorem trial_unprepared {e : DispatchError} (h : s.trial n = .unprepared e) :
    (∃ e', e = .caller e') ∨ ∃ source, e = .noTarget s.invocation.qualified source := by
  unfold trial trialFrom at h
  split at h
  · next he =>
      cases h
      exact Invocation.prepare_error he
  · cases h

theorem outcome_retriesExhausted (s : Scenario) (n m : Nat) (name : String) :
    (s.trial n).outcome s.invocation m = .error (.retriesExhausted name m) ↔
      s.isStale n = true ∧ name = s.invocation.qualified := by
  have hlimit : s.invocation.route.timeout.ticks = s.limit := rfl
  unfold isStale Trial.isStale
  cases ht : s.trial n with
  | unprepared e =>
      rcases trial_unprepared ht with ⟨e', rfl⟩ | ⟨source, rfl⟩ <;>
        simp [Trial.outcome, Trial.answer?]
  | sent sub arrival =>
      rw [Trial.outcome, hlimit]
      cases hx : (Trial.sent sub arrival).answer? s.limit with
      | none => simp
      | some x =>
          cases x with
          | ok v => simp [Invocation.verdict]
          | error e =>
              cases e with
              | remote e => simp [Invocation.verdict, CallFailure.isStale]
              | _ => simp [Invocation.verdict, CallFailure.isStale, eq_comm]

end Scenario

end Switchboard
