import Switchboard.Proofs.Cluster.Progress

namespace Switchboard.Cluster

structure Down (c : Cluster) : Prop where
  stopped : c.running = false
  empty : c.seats = []

variable {c c' : Cluster} {e : Event} {n : Nat} {seat : Seat}

theorem rebalance_down (h : c.Down) : c.rebalance = c :=
  rebalance_of_dataIds_nil (by simp [dataIds, h.empty])

theorem perform_down (h : c.Down) (o : Operation) : c.perform o = c := by
  cases o with
  | add m services => simp [perform, attempt, addMember, h.stopped]
  | remove id => simp [perform, attempt, removeMember, h.empty, Keyed.find?, Except.map]
  | move p id => simp [perform, attempt, movePartition, h.empty, Keyed.find?]
  | rebalance => simp [perform, attempt, rebalance_down h]
  | shutdown => simp [perform, attempt, shutdown, h.stopped]

def closedError (call : Call) : RemoteError :=
  .of "ClusterShutDown" (call.qualified ++ " submitted after cluster shutdown")

theorem submit_down (h : c.Down) (call : Call) (target : Option Member) :
    c.submit call target = (.settled (.error (.remote (closedError call))), c) := by
  simp [submit, route, h.stopped, closedError]

theorem alive_down (h : c.Down) : c.alive = [] := by
  simp [alive, h.empty, Keyed.values]

theorem Down.run (h : c.Down) (now n : Nat) : (c.runTaskAt now n).Down := by
  rcases runTaskAt_cases c now n with hc | ⟨t, -, ⟨x, -, hc⟩ | ⟨s, w, -, hc⟩⟩
  · rwa [hc]
  · rw [hc]
    exact ⟨h.stopped, h.empty⟩
  · obtain ⟨services, stage, hw⟩ := work_eq c now t s w
    rw [hc, hw]
    exact ⟨h.stopped, by simp [setStage, updateServer, h.empty]⟩

theorem Down.after (h : c.Down) (e : Event) : (c.after e).Down := by
  cases e with
  | operate o =>
      have hsame : c.after (.operate o) = c := perform_down h o
      rwa [hsame]
  | submit call target =>
      have hsame : c.after (.submit call target) = c := by rw [Cluster.after, submit_down h]
      rwa [hsame]
  | run now n => exact h.run now n
  | abort n => exact ⟨h.stopped, h.empty⟩

theorem executed_run (c : Cluster) (now n : Nat) : (c.runTaskAt now n).executed = c.executed := by
  rcases runTaskAt_cases c now n with hc | ⟨t, -, ⟨x, -, hc⟩ | ⟨s, w, -, hc⟩⟩
  · rw [hc]
  · simp [hc, executed, setStage]
  · obtain ⟨services, stage, hw⟩ := work_eq c now t s w
    simp [hc, hw, executed, setStage, updateServer]

theorem Down.executed (h : c.Down) (e : Event) : (c.after e).executed = c.executed := by
  cases e with
  | operate o => exact congrArg Cluster.executed (perform_down h o)
  | submit call target => exact congrArg (fun r => Cluster.executed r.2) (submit_down h call target)
  | run now n => exact executed_run c now n
  | abort n => simp [Cluster.after, abort, Cluster.executed]

theorem running_attempt {o : Operation} (h : c.attempt o = .ok c') (ho : o ≠ .shutdown) :
    c'.running = c.running := by
  cases o with
  | add m services =>
      simp only [attempt, addMember] at h
      split at h
      · cases h
      split at h
      · cases h
      cases h
      rfl
  | remove id =>
      simp only [attempt, removeMember] at h
      split at h
      · cases h
      · cases h
        exact (rewriting_assignUnowned _).running
  | move p id => exact (rewriting_movePartition h).running
  | rebalance =>
      cases h
      exact (rewriting_rebalance c).running
  | shutdown => exact absurd rfl ho

theorem down_shutdown (h : c.running = true) : (c.perform .shutdown).Down := by
  obtain ⟨history, hfold⟩ := foldl_retire c.seats
    { c with running := false, seats := [], owners := c.owners.map fun _ => none }
  simp only [perform, attempt, shutdown, h, if_true, hfold]
  exact ⟨rfl, rfl⟩

theorem running_perform (h : c.running = true) (o : Operation) :
    (c.perform o).running = true ∨ (c.perform o).Down := by
  by_cases ho : o = .shutdown
  · exact Or.inr (ho ▸ down_shutdown h)
  · refine Or.inl ?_
    unfold perform
    split
    next c' hc => exact (running_attempt hc ho).trans h
    next => exact h

theorem running_after (h : c.running = true ∨ c.Down) (e : Event) :
    (c.after e).running = true ∨ (c.after e).Down := by
  rcases h with hrun | hdown
  · cases e with
    | operate o => exact running_perform hrun o
    | submit call target =>
        refine Or.inl ?_
        change (c.submit call target).2.running = true
        cases hr : (c.submit call target).1 with
        | settled r => rwa [(submit_settled hr).1]
        | task n =>
            obtain ⟨id, p, seat, -, -, -, hc⟩ := submit_task hr
            rwa [hc]
    | run now n =>
        refine Or.inl ?_
        change (c.runTaskAt now n).running = true
        rcases runTaskAt_cases c now n with hc | ⟨t, -, ⟨x, -, hc⟩ | ⟨s, w, -, hc⟩⟩
        · rwa [hc]
        · rwa [hc]
        · rwa [hc]
    | abort n => exact Or.inl hrun
  · exact Or.inr (hdown.after e)

theorem Down.reached (h : c.running = true ∨ c.Down) : (c.after (.operate .shutdown)).Down := by
  rcases h with hrun | hdown
  · exact down_shutdown hrun
  · exact hdown.after (.operate .shutdown)

theorem Down.not_running (h : c.Down) (hs : Sound c) {s : Server} (hn : c.server? n = some s) :
    s.isRunning = false := by
  rw [server?_eq] at hn
  obtain ⟨seat, hseat, rfl⟩ := Option.map_eq_some_iff.1 hn
  refine hs.ended seat ?_
  simpa [allSeats, h.empty, Keyed.values] using (seat?_mem hseat).1

theorem Down.accept (h : c.Down) (hs : Sound c) {s : Server} (hn : c.server? n = some s)
    (p : Option PartitionId) (name : String) :
    s.accept p name = .error (.memberLeft s.member.id) := by
  simp [Server.accept, h.not_running hs hn]

theorem Down.uninvoked (h : c.Down) (hs : Sound c) (e : Event) (n : Nat) :
    .invoked n ∉ c.signals e := by
  cases e with
  | run now m =>
      rw [invoked_mem_signals]
      rintro ⟨-, hcall⟩
      obtain ⟨⟨seat, svc⟩, hcall⟩ := Option.isSome_iff_exists.1 hcall
      obtain ⟨t, -, -, hseat, hok⟩ := invokes?_eq_some.1 hcall
      have hserver : c.server? t.seat = some seat.server := by rw [server?_eq, hseat]; rfl
      rw [h.accept hs hserver] at hok
      cases hok
  | _ => exact List.not_mem_nil

theorem Down.queued_after (h : c.Down) (hs : Sound c) (hq : c.stage? n = some .queued) (e : Event) :
    (c.after e).stage? n = some .queued ∨
      (∃ id, (c.after e).stage? n = some (.refused (.memberLeft id))) ∨
      (c.after e).stage? n = some .aborted := by
  have hp := progress_after hs e n
  have hsilent : .invoked n ∉ (c.signals e).filter (·.concerns n) :=
    fun hm => h.uninvoked hs e n (List.mem_filter.1 hm).1
  have hrefused (x : CallFailure) (hx : (c.after e).stage? n = some (.refused x)) :
      ∃ id, x = .memberLeft id := by
    obtain ⟨now, t, s, -, -, hserver, ha⟩ := refused_after hs hq hx
    rw [h.accept hs hserver] at ha
    cases ha
    exact ⟨_, rfl⟩
  rw [hq] at hp
  generalize (c.signals e).filter (·.concerns n) = seen at hp hsilent
  generalize (c.after e).stage? n = stage at hp hrefused
  cases hp with
  | still => exact Or.inl rfl
  | refuse x =>
      obtain ⟨id, rfl⟩ := hrefused x rfl
      exact Or.inr (Or.inl ⟨id, rfl⟩)
  | begin wake rest => simp at hsilent
  | answer s r => simp at hsilent
  | drop => exact Or.inr (Or.inr rfl)

end Switchboard.Cluster
