import Switchboard.Proofs.Dispatch.Run

namespace Switchboard

def DispatchError.isUnserved : DispatchError → Bool
  | caller _ | noTarget _ _ | retriesExhausted _ _ => true
  | _ => false

variable {c c' : Cluster} {sent : List Nat} {n m : Nat} {w w' : World} {i : Invocation}

namespace Cluster

def Refused (c : Cluster) (n : Nat) : Prop := ∃ e, c.stage? n = some (.refused e)

def Keeps (c c' : Cluster) : Prop :=
  ∀ n s, c.stage? n = some s → (s.result? n).isSome → c'.stage? n = some s

theorem keeps_after (h : Sound c) (e : Event) : Keeps c (c.after e) := by
  intro n s hs hr
  have hp := progress_after h e n
  rw [hs] at hp
  exact hp.ended hr

theorem Refused.keep (h : c.Refused n) (hk : Keeps c c') : c'.Refused n := by
  obtain ⟨e, he⟩ := h
  exact ⟨e, hk n _ he rfl⟩

theorem taskResult?_eq (c : Cluster) (n : Nat) :
    c.taskResult? n = (c.stage? n).bind (·.result? n) := by
  simp only [taskResult?, stage?]
  cases c.tasks[n]? <;> rfl

theorem report_eq_ok {s : Server} {r : Except Fault Json} {v : Json}
    (h : s.report n r = .ok v) : r = .ok v := by
  cases r with
  | ok u => exact congrArg _ (Except.ok.inj h)
  | error e => cases e <;> cases h

theorem stage_of_result {seen : List Signal} {r : CallResult} (h : History n seen (c.stage? n))
    (hr : c.taskResult? n = some r) :
    (∃ v, r = .ok v ∧ c.stage? n = some (.finished (.ok v))) ∨
      (∃ e, r = .error (.remote e)) ∨ ∃ e, r = .error e ∧ c.Refused n := by
  rw [taskResult?_eq] at hr
  obtain ⟨s, hs, hres⟩ := Option.bind_eq_some_iff.1 hr
  rw [hs] at h
  cases s with
  | queued => cases hres
  | working wake rest => cases hres
  | refused e =>
      cases hres
      exact Or.inr (Or.inr ⟨e, rfl, e, hs⟩)
  | aborted =>
      cases hres
      exact Or.inr (Or.inl ⟨_, rfl⟩)
  | finished r' =>
      cases hres
      obtain ⟨srv, v, rfl, -⟩ := h
      cases v with
      | ok v => exact Or.inl ⟨v, rfl, hs⟩
      | error e => cases e <;> exact Or.inr (Or.inl ⟨_, rfl⟩)

def Traced (c : Cluster) (sent : List Nat) : Phase → Prop
  | .preparing _ | .resting _ _ => ∀ k ∈ sent, c.Refused k
  | .waiting _ ⟨.task m, _⟩ _ => m ∈ sent ∧ ∀ k ∈ sent, k ≠ m → c.Refused k
  | .waiting _ ⟨.course _ course, _⟩ _ =>
      (∃ e, course = .result (.error e)) ∧ ∀ k ∈ sent, c.Refused k
  | .settled (.ok v) _ =>
      ∃ m ∈ sent, c.stage? m = some (.finished (.ok v)) ∧ ∀ k ∈ sent, k ≠ m → c.Refused k
  | .settled (.error e) _ =>
      (∀ k ∈ sent, c.Refused k) ∨
        e.isUnserved = false ∧ ∃ m, ∀ k ∈ sent, k ≠ m → c.Refused k

theorem Traced.keep {ph : Phase} (h : Traced c sent ph) (hk : Keeps c c') : Traced c' sent ph := by
  cases ph with
  | preparing n => exact fun k hm => (h k hm).keep hk
  | resting n wake => exact fun k hm => (h k hm).keep hk
  | waiting n p deadline =>
      obtain ⟨hold, hook⟩ := p
      cases hold with
      | task m => exact ⟨h.1, fun k hm hne => (h.2 k hm hne).keep hk⟩
      | course due course => exact ⟨h.1, fun k hm => (h.2 k hm).keep hk⟩
  | settled r tick =>
      cases r with
      | ok v =>
          obtain ⟨m, hm, hs, hrest⟩ := h
          exact ⟨m, hm, hk m _ hs rfl, fun k hk' hne => (hrest k hk' hne).keep hk⟩
      | error e =>
          rcases h with h | ⟨he, m, h⟩
          · exact Or.inl fun k hm => (h k hm).keep hk
          · exact Or.inr ⟨he, m, fun k hm hne => (h k hm hne).keep hk⟩

theorem Traced.spent {ph : Phase} (h : Traced c sent ph) :
    ∃ m, ∀ k ∈ sent, k ≠ m → c.Refused k := by
  cases ph with
  | preparing n => exact ⟨0, fun k hk _ => h k hk⟩
  | resting n wake => exact ⟨0, fun k hk _ => h k hk⟩
  | waiting n p deadline =>
      obtain ⟨hold, hook⟩ := p
      cases hold with
      | task m => exact ⟨m, h.2⟩
      | course due course => exact ⟨0, fun k hk _ => h.2 k hk⟩
  | settled r tick =>
      cases r with
      | ok v =>
          obtain ⟨m, -, -, hrest⟩ := h
          exact ⟨m, hrest⟩
      | error e =>
          rcases h with hall | ⟨-, hrest⟩
          · exact ⟨0, fun k hk _ => hall k hk⟩
          · exact hrest

theorem Traced.follow {ph : Phase} (h : Traced c sent ph) (now : Nat) :
    Traced c sent (Flight.follow now ph) := by
  cases ph with
  | waiting n p deadline =>
      obtain ⟨hold, hook⟩ := p
      cases hold with
      | task m => exact h
      | course due course =>
          obtain ⟨⟨e, rfl⟩, hrest⟩ := h
          exact ⟨⟨e, rfl⟩, hrest⟩
  | _ => exact h

def Quiet (c c' : Cluster) : Prop := c' = c ∨ ∃ e, c.signals e = [] ∧ c' = c.after e

theorem traced_submit (hw : w.substrate = .cluster c) (hsent : ∀ k ∈ sent, c.Refused k)
    (h : Sound c) (call : Call) (target : Option Member) (n deadline : Nat) :
    ∃ c', (w.submit call target).2.substrate = .cluster c' ∧ Quiet c c' ∧
      Traced c' (sent ++ (Flight.handed? (.preparing n)
        (.waiting n (w.submit call target).1 deadline)).toList)
        (.waiting n (w.submit call target).1 deadline) := by
  cases hr : (c.submit call target).1 with
  | settled r =>
      obtain ⟨hc, e, rfl⟩ := submit_settled hr
      have hplace : World.place (.cluster c) call target =
          (.settled (.error e), .cluster c) := by
        rw [World.place]
        split <;> simp_all
      simp only [World.submit, hw, hplace]
      exact ⟨c, rfl, Or.inl rfl, ⟨e, rfl⟩, by simpa [Flight.handed?, Pending.settled] using hsent⟩
  | task m =>
      have hplace : World.place (.cluster c) call target =
          (.ofTask m, .cluster (c.submit call target).2) := by
        rw [World.place]
        split <;> simp_all
      have hkeeps : Keeps c (c.submit call target).2 := keeps_after h (.submit call target)
      simp only [World.submit, hw, hplace]
      refine ⟨_, rfl, Or.inr ⟨.submit call target, rfl, rfl⟩, ?_, ?_⟩
      · simp [Flight.handed?, Pending.ofTask]
      intro k hk hne
      rcases List.mem_append.1 hk with hk | hk
      · exact (hsent k hk).keep hkeeps
      · exact absurd (by simpa [Flight.handed?, Pending.ofTask] using hk) hne

theorem traced_conclude {p : Pending} {deadline : Nat} {r : CallResult}
    (hw : w.substrate = .cluster c) (hseen : ∀ n, ∃ seen, History n seen (c.stage? n))
    (h : Traced c sent (.waiting n p deadline)) (hr : w.result? p = some r) (i : Invocation)
    (now : Nat) : Traced c sent (Flight.conclude i n now r) := by
  -- Only a refusal leads to another attempt, and it leaves all tasks so far refused.
  have hstale (e : CallFailure) (hall : ∀ k ∈ sent, c.Refused k) :
      Traced c sent (Flight.conclude i n now (.error e)) := by
    cases e with
    | remote e => exact Or.inl hall
    | _ =>
        simp only [Flight.conclude]
        split
        · exact hall
        · exact Or.inl hall
  obtain ⟨hold, hook⟩ := p
  cases hold with
  | course due course =>
      obtain ⟨⟨e, rfl⟩, hall⟩ := h
      cases hr
      exact hstale e hall
  | task m =>
      obtain ⟨hm, hrest⟩ := h
      obtain ⟨seen, hhist⟩ := hseen m
      have hres : c.taskResult? m = some r := by
        simpa [World.result?, World.cluster?, hw] using hr
      rcases stage_of_result hhist hres with ⟨v, rfl, hs⟩ | ⟨e, rfl⟩ | ⟨e, rfl, href⟩
      · exact ⟨m, hm, hs, hrest⟩
      · exact Or.inr ⟨rfl, m, hrest⟩
      · refine hstale e fun k hk => ?_
        by_cases hne : k = m
        · exact hne ▸ href
        · exact hrest k hk hne

theorem quiet_interrupt (hw : w.substrate = .cluster c) (p : Pending) :
    ∃ c', (w.interrupt p).2.substrate = .cluster c' ∧ Quiet c c' := by
  cases hp : p.interrupt with
  | none =>
      simp only [World.interrupt, hp]
      exact ⟨c, hw, Or.inl rfl⟩
  | some hook =>
      simp only [World.interrupt, hp]
      cases hook with
      | count => exact ⟨c, hw, Or.inl rfl⟩
      | abort m =>
          exact ⟨c.abort m, by simp [World.runHook, World.mapCluster, hw],
            Or.inr ⟨.abort m, rfl, rfl⟩⟩

theorem Quiet.sound (hq : Quiet c c') (h : Sound c) : Sound c' := by
  rcases hq with rfl | ⟨e, -, rfl⟩
  · exact h
  · exact h.after e

theorem Quiet.keeps (hq : Quiet c c') (h : Sound c) : Keeps c c' := by
  rcases hq with rfl | ⟨e, -, rfl⟩
  · exact fun _ _ hs _ => hs
  · exact keeps_after h e

theorem traced_step {ph ph' : Phase} (hw : w.substrate = .cluster c) (h : Sound c)
    (hseen : ∀ n, ∃ seen, History n seen (c.stage? n)) (ht : Traced c sent ph)
    (hstep : Flight.step i w ph = some (ph', w')) :
    ∃ c', w'.substrate = .cluster c' ∧ Quiet c c' ∧
      Traced c' (sent ++ (Flight.handed? ph ph').toList) ph' := by
  obtain ⟨cursors, consulted, hp⟩ := Flight.prepare_frame i w
  have hprepared : (i.prepare w).2.substrate = .cluster c := by rw [hp]; exact hw
  cases Flight.goes_of_step hstep with
  | unprepared _ => exact ⟨c, hprepared, Or.inl rfl, Or.inl (by simpa [Flight.handed?, Traced] using ht)⟩
  | @submit n call target _ => exact traced_submit hprepared ht h call target n _
  | conclude hr =>
      refine ⟨c, hw, Or.inl rfl, ?_⟩
      simpa [Flight.handed?] using traced_conclude hw hseen ht hr i w.now
  | @expire n deadline p _ _ =>
      have hquiet : ∃ c', (if i.route.interrupt then (w.interrupt p).2 else w).substrate =
          .cluster c' ∧ Quiet c c' := by
        split
        · exact quiet_interrupt hw p
        · exact ⟨c, hw, Or.inl rfl⟩
      obtain ⟨c', hw', hq⟩ := hquiet
      refine ⟨c', hw', hq, Or.inr ⟨rfl, ?_⟩⟩
      simpa [Flight.handed?] using (ht.keep (hq.keeps h)).spent
  | wake _ =>
      refine ⟨c, hw, Or.inl rfl, ?_⟩
      simpa [Flight.handed?, Traced] using ht

theorem Quiet.history (hq : Quiet c c') (h : Sound c) {seen : List Signal}
    (hs : History n seen (c.stage? n)) : History n seen (c'.stage? n) := by
  rcases hq with rfl | ⟨e, he, rfl⟩
  · exact hs
  · have hp := progress_after h e n
    rw [he] at hp
    simpa using hs.progress hp

end Cluster

end Switchboard
