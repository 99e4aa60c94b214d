import Switchboard.Proofs.Cluster.Schedule

namespace Switchboard

inductive Signal where
  | sent (place task : Nat)
  | invoked (task : Nat)
  | returned (task : Nat) (r : Except Fault Json)

def Signal.concerns (n : Nat) : Signal → Bool
  | .sent _ _ => false
  | .invoked m => m = n
  | .returned m _ => m = n

@[simp] theorem Signal.concerns_sent (n place m : Nat) : (Signal.sent place m).concerns n = false :=
  rfl

@[simp] theorem Signal.concerns_invoked (n m : Nat) :
    (Signal.invoked m).concerns n = decide (m = n) := rfl

@[simp] theorem Signal.concerns_returned (n m : Nat) (r : Except Fault Json) :
    (Signal.returned m r).concerns n = decide (m = n) := rfl

def Pause.signals (n : Nat) : Pause → List Signal
  | .ended r => [.returned n r]
  | .asleep _ _ => []

namespace Cluster

def runSignals (c : Cluster) (now n : Nat) : List Signal :=
  match c.tasks[n]? with
  | none => []
  | some t =>
      match c.server? t.seat, t.stage with
      | some s, .queued =>
          match s.accept t.partition t.call.service with
          | .error _ => []
          | .ok svc =>
              .invoked n :: (s.advance t.call.service
                (svc.respond t.call.method t.call.argTypes t.call.args)).2.signals n
      | some s, .working wake rest =>
          if wake ≤ now then (s.advance t.call.service rest).2.signals n else []
      | _, _ => []

def signals (c : Cluster) : Event → List Signal
  | .run now n => c.runSignals now n
  | _ => []

def stage? (c : Cluster) (n : Nat) : Option Stage := (c.tasks[n]?).map Task.stage

variable {c : Cluster} {n : Nat} {t : Task}

theorem invoked_mem_signals (c : Cluster) (now n m : Nat) :
    .invoked m ∈ c.signals (.run now n) ↔ m = n ∧ (c.invokes? n).isSome := by
  have hpause (p : Pause) : .invoked m ∉ p.signals n := by cases p <;> simp [Pause.signals]
  simp only [signals, runSignals, invokes?, server?_eq]
  cases ht : c.tasks[n]? with
  | none => simp
  | some t =>
      cases hs : c.seat? t.seat with
      | none => simp [hs]
      | some seat =>
          cases hq : t.stage with
          | queued =>
              cases ha : seat.server.accept t.partition t.call.service with
              | error e => simp [hs, hq, ha]
              | ok svc => simp [hs, hq, ha, hpause]
          | working wake rest =>
              by_cases hw : wake ≤ now <;> simp [hs, hq, hw, hpause]
          | _ => simp [hs, hq]

/-- How an event takes a task from stage to stage, with what is seen of its handler. -/
inductive Progress (n : Nat) : List Signal → Option Stage → Option Stage → Prop
  | still (s : Option Stage) : Progress n [] s s
  | submit : Progress n [] none (some .queued)
  | refuse (e : CallFailure) : Progress n [] (some .queued) (some (.refused e))
  | begin (wake : Nat) (rest : Work) :
      Progress n [.invoked n] (some .queued) (some (.working wake rest))
  | answer (s : Server) (r : Except Fault Json) :
      Progress n [.invoked n, .returned n r] (some .queued) (some (.finished (s.report n r)))
  | resume (wake wake' : Nat) (rest rest' : Work) :
      Progress n [] (some (.working wake rest)) (some (.working wake' rest'))
  | finish (wake : Nat) (rest : Work) (s : Server) (r : Except Fault Json) :
      Progress n [.returned n r] (some (.working wake rest)) (some (.finished (s.report n r)))
  | drop : Progress n [] (some .queued) (some .aborted)
  | cut (wake : Nat) (rest : Work) : Progress n [] (some (.working wake rest)) (some .aborted)

theorem stage?_setStage (c : Cluster) (m n : Nat) (stage : Stage) :
    (c.setStage m stage).stage? n =
      if m = n then (c.stage? n).map (fun _ => stage) else c.stage? n := by
  simp only [stage?, setStage, List.getElem?_modify, Option.map_eq_map, Option.map_map]
  split <;> simp [Function.comp_def]

theorem stage?_abort (c : Cluster) (m n : Nat) :
    (c.abort m).stage? n = if m = n then (c.stage? n).map Stage.abort else c.stage? n := by
  simp only [stage?, abort, List.getElem?_modify, Option.map_eq_map, Option.map_map]
  split <;> simp [Function.comp_def]

theorem stage?_append (c : Cluster) (t : Task) (n : Nat) :
    Cluster.stage? { c with tasks := c.tasks ++ [t] } n =
      if n = c.tasks.length then some t.stage else c.stage? n := by
  simp only [stage?]
  split
  · next h => simp [h]
  · next h =>
      rcases Nat.lt_or_gt_of_ne h with hlt | hgt
      · rw [List.getElem?_append_left hlt]
      · rw [List.getElem?_eq_none (by simp; omega), List.getElem?_eq_none (by omega)]

theorem stage?_work (c : Cluster) (now : Nat) (t : Task) (s : Server) (w : Work) (n : Nat) :
    (c.work now t s w).stage? n =
      if t.number = n then (c.stage? n).map fun _ =>
        match (s.advance t.call.service w).2 with
        | .ended r => .finished ((s.advance t.call.service w).1.report t.number r)
        | .asleep ms rest => .working (now + ms) rest
      else c.stage? n := by
  rw [work]
  exact stage?_setStage ..

theorem filter_concerns_self (n : Nat) (p : Pause) :
    (p.signals n).filter (·.concerns n) = p.signals n := by
  cases p <;> simp [Pause.signals]

theorem filter_concerns_of_ne {m : Nat} (h : m ≠ n) (p : Pause) :
    (p.signals m).filter (·.concerns n) = [] := by
  cases p <;> simp [Pause.signals, h]

theorem Sound.number_eq (h : Sound c) (ht : c.tasks[n]? = some t) : t.number = n :=
  h.places n t.ticket (by rw [tickets, List.getElem?_map, ht]; rfl)

theorem progress_first (c : Cluster) {s : Server} {svc : Service} (now : Nat)
    (ht : c.tasks[t.number]? = some t) (hs : c.server? t.seat = some s) (hq : t.stage = .queued)
    (ha : s.accept t.partition t.call.service = .ok svc) (n : Nat) :
    Progress n ((c.runSignals now t.number).filter (·.concerns n)) (c.stage? n)
      ((c.runTaskAt now t.number).stage? n) := by
  have hrun : c.runTaskAt now t.number =
      c.work now t s (svc.respond t.call.method t.call.argTypes t.call.args) := by
    simp [runTaskAt, ht, runTask, hs, hq, ha]
  have hsignals : c.runSignals now t.number = .invoked t.number :: (s.advance t.call.service
      (svc.respond t.call.method t.call.argTypes t.call.args)).2.signals t.number := by
    simp [runSignals, ht, hs, hq, ha]
  rw [hrun, hsignals, stage?_work]
  by_cases hn : t.number = n
  · subst hn
    have hstage : c.stage? t.number = some .queued := by rw [stage?, ht, Option.map_some, hq]
    rw [if_pos rfl, hstage]
    cases (s.advance t.call.service
        (svc.respond t.call.method t.call.argTypes t.call.args)).2 with
    | ended r => simpa [Pause.signals] using Progress.answer _ r
    | asleep ms rest => simpa [Pause.signals] using Progress.begin (now + ms) rest
  · rw [if_neg hn, List.filter_cons, filter_concerns_of_ne hn]
    simpa [hn] using Progress.still _

theorem progress_later (c : Cluster) {s : Server} {now wake : Nat} {rest : Work}
    (ht : c.tasks[t.number]? = some t) (hs : c.server? t.seat = some s)
    (hq : t.stage = .working wake rest) (hw : wake ≤ now) (n : Nat) :
    Progress n ((c.runSignals now t.number).filter (·.concerns n)) (c.stage? n)
      ((c.runTaskAt now t.number).stage? n) := by
  have hrun : c.runTaskAt now t.number = c.work now t s rest := by
    simp [runTaskAt, ht, runTask, hs, hq, hw]
  have hsignals : c.runSignals now t.number =
      (s.advance t.call.service rest).2.signals t.number := by
    simp [runSignals, ht, hs, hq, hw]
  rw [hrun, hsignals, stage?_work]
  by_cases hn : t.number = n
  · subst hn
    have hstage : c.stage? t.number = some (.working wake rest) := by
      rw [stage?, ht, Option.map_some, hq]
    rw [if_pos rfl, hstage, filter_concerns_self]
    cases (s.advance t.call.service rest).2 with
    | ended r => exact .finish wake rest _ r
    | asleep ms rest' => exact .resume wake (now + ms) rest rest'
  · rw [if_neg hn, filter_concerns_of_ne hn]
    exact .still _

theorem progress_run (h : Sound c) (now m n : Nat) :
    Progress n ((c.runSignals now m).filter (·.concerns n)) (c.stage? n)
      ((c.runTaskAt now m).stage? n) := by
  cases ht : c.tasks[m]? with
  | none => simpa [runSignals, runTaskAt, ht] using Progress.still (c.stage? n)
  | some t =>
      obtain rfl := h.number_eq ht
      cases hs : c.server? t.seat with
      | none => simpa [runSignals, runTaskAt, runTask, ht, hs] using Progress.still (c.stage? n)
      | some s =>
          cases hq : t.stage with
          | queued =>
              cases ha : s.accept t.partition t.call.service with
              | error e =>
                  have hrun : c.runTaskAt now t.number = c.setStage t.number (.refused e) := by
                    simp [runTaskAt, ht, runTask, hs, hq, ha]
                  have hsignals : c.runSignals now t.number = [] := by
                    simp [runSignals, ht, hs, hq, ha]
                  rw [hrun, hsignals, stage?_setStage]
                  split
                  · next hn =>
                      subst hn
                      simpa [stage?, ht, hq] using Progress.refuse e
                  · exact .still _
              | ok svc => exact progress_first c now ht hs hq ha n
          | working wake rest =>
              by_cases hw : wake ≤ now
              · exact progress_later c ht hs hq hw n
              · simpa [runSignals, runTaskAt, runTask, ht, hs, hq, hw] using
                  Progress.still (c.stage? n)
          | _ =>
              simpa [runSignals, runTaskAt, runTask, ht, hs, hq] using Progress.still (c.stage? n)

theorem tasks_perform (c : Cluster) (o : Operation) : (c.perform o).tasks = c.tasks :=
  invariant_of_steps (P := fun d => d.tasks = c.tasks) (changes_perform c o)
    (fun hc hd => (tasks_change hc).trans hd) rfl

theorem stage?_perform (c : Cluster) (o : Operation) (n : Nat) :
    (c.perform o).stage? n = c.stage? n := by
  rw [stage?, tasks_perform, stage?]

theorem progress_after (h : Sound c) (e : Event) (n : Nat) :
    Progress n ((c.signals e).filter (·.concerns n)) (c.stage? n) ((c.after e).stage? n) := by
  cases e with
  | operate o => exact stage?_perform c o n ▸ .still _
  | submit call target =>
      change Progress n [] (c.stage? n) ((c.submit call target).2.stage? n)
      cases hr : (c.submit call target).1 with
      | settled r =>
          rw [(submit_settled hr).1]
          exact .still _
      | task m =>
          obtain ⟨id, p, seat, -, -, -, hc⟩ := submit_task hr
          rw [hc, stage?_append]
          split
          · next hn =>
              subst hn
              simpa [stage?] using Progress.submit
          · exact .still _
  | run now m => exact progress_run h now m n
  | abort m =>
      change Progress n [] (c.stage? n) ((c.abort m).stage? n)
      rw [stage?_abort]
      split
      · cases c.stage? n with
        | none => exact .still _
        | some s =>
            cases s with
            | queued => exact .drop
            | working wake rest => exact .cut wake rest
            | _ => exact .still _
      · exact .still _

def History (n : Nat) (seen : List Signal) : Option Stage → Prop
  | none | some .queued | some (.refused _) => seen = []
  | some (.working _ _) => seen = [.invoked n]
  | some (.finished r) =>
      ∃ (s : Server) (v : Except Fault Json), r = s.report n v ∧
        seen = [.invoked n, .returned n v]
  | some .aborted => seen = [] ∨ seen = [.invoked n]

theorem History.progress {seen new : List Signal} {s s' : Option Stage} (h : History n seen s)
    (hp : Progress n new s s') : History n (seen ++ new) s' := by
  cases hp with
  | still s =>
      rw [List.append_nil]
      exact h
  | answer s r =>
      refine ⟨s, r, rfl, ?_⟩
      simp only [History] at h
      rw [h, List.nil_append]
  | finish wake rest s r =>
      refine ⟨s, r, rfl, ?_⟩
      simp only [History] at h
      rw [h, List.singleton_append]
  | _ => simp_all [History]

theorem Progress.ended {new : List Signal} {s : Stage} {s' : Option Stage}
    (hp : Progress n new (some s) s') (hs : (s.result? n).isSome) : s' = some s := by
  cases hp with
  | still => rfl
  | _ => simp [Stage.result?] at hs

theorem Progress.quiet {new : List Signal} {s : Stage} {s' : Option Stage}
    (hp : Progress n new (some s) s') (hs : (s.result? n).isSome) : new = [] := by
  cases hp with
  | still => rfl
  | _ => simp [Stage.result?] at hs

theorem Progress.invoked_iff {new : List Signal} {s s' : Option Stage}
    (hp : Progress n new s s') : .invoked n ∈ new ↔ s = some .queued ∧
      ((∃ wake rest, s' = some (.working wake rest)) ∨ ∃ r, s' = some (.finished r)) := by
  cases hp with
  | still =>
      simp only [List.not_mem_nil, false_iff, not_and]
      rintro rfl
      simp
  | _ => simp

theorem Progress.returned_iff {new : List Signal} {s s' : Option Stage}
    (hp : Progress n new s s') :
    (∃ v, .returned n v ∈ new) ↔ s' ≠ s ∧ ∃ r, s' = some (.finished r) := by
  cases hp <;> simp

theorem Progress.reported {new : List Signal} {s s' : Option Stage} {v : Except Fault Json}
    (hp : Progress n new s s') (hv : .returned n v ∈ new) :
    ∃ server : Server, s' = some (.finished (server.report n v)) := by
  cases hp with
  | answer server r | finish _ _ server r =>
      obtain rfl : v = r := by simpa using hv
      exact ⟨server, rfl⟩
  | _ => simp at hv

/-- What an event lets be seen of a task tells to which stage it takes it, and the stage what is
seen. -/
theorem seen_iff_stage (h : Sound c) (e : Event) (n : Nat) :
    (.invoked n ∈ c.signals e ↔ c.stage? n = some .queued ∧
      ((∃ wake rest, (c.after e).stage? n = some (.working wake rest)) ∨
        ∃ r, (c.after e).stage? n = some (.finished r))) ∧
      ((∃ v, .returned n v ∈ c.signals e) ↔ (c.after e).stage? n ≠ c.stage? n ∧
        ∃ r, (c.after e).stage? n = some (.finished r)) ∧
      ∀ v, .returned n v ∈ c.signals e →
        ∃ server : Server, (c.after e).stage? n = some (.finished (server.report n v)) := by
  have hp := progress_after h e n
  have hinvoked : .invoked n ∈ (c.signals e).filter (·.concerns n) ↔ .invoked n ∈ c.signals e := by
    simp
  have hreturned (v : Except Fault Json) :
      .returned n v ∈ (c.signals e).filter (·.concerns n) ↔ .returned n v ∈ c.signals e := by
    simp
  refine ⟨hinvoked.symm.trans hp.invoked_iff, ?_, fun v hv => hp.reported ((hreturned v).2 hv)⟩
  exact (exists_congr hreturned).symm.trans hp.returned_iff

theorem work_refuses_none {x : CallFailure} {now : Nat} {s : Server} {w : Work}
    (hq : c.stage? n = some .queued) : (c.work now t s w).stage? n ≠ some (.refused x) := by
  intro hx
  rw [stage?_work, hq] at hx
  split at hx
  · simp only [Option.map_some, Option.some.injEq] at hx
    split at hx <;> cases hx
  · cases hx

theorem refused_by_run {x : CallFailure} {now m : Nat} (h : Sound c)
    (hq : c.stage? n = some .queued) (hx : (c.runTaskAt now m).stage? n = some (.refused x)) :
    m = n ∧ ∃ t s, c.tasks[n]? = some t ∧ c.server? t.seat = some s ∧
      s.accept t.partition t.call.service = .error x := by
  have hno : c.stage? n ≠ some (.refused x) := by simp [hq]
  unfold runTaskAt at hx
  split at hx
  · next t ht =>
      obtain rfl := h.number_eq ht
      unfold runTask at hx
      split at hx
      · next s hs _ =>
          split at hx
          · next e ha =>
              rw [stage?_setStage, hq] at hx
              split at hx
              · next hn =>
                  cases hx
                  exact ⟨hn, t, s, hn ▸ ht, hs, ha⟩
              · cases hx
          · exact absurd hx (work_refuses_none hq)
      · split at hx
        · exact absurd hx (work_refuses_none hq)
        · exact absurd hx hno
      · exact absurd hx hno
  · exact absurd hx hno

theorem refused_after {e : Event} {x : CallFailure} (h : Sound c) (hq : c.stage? n = some .queued)
    (hx : (c.after e).stage? n = some (.refused x)) :
    ∃ now t s, e = .run now n ∧ c.tasks[n]? = some t ∧ c.server? t.seat = some s ∧
      s.accept t.partition t.call.service = .error x := by
  cases e with
  | run now m =>
      obtain ⟨rfl, t, s, ht, hs, ha⟩ := refused_by_run h hq hx
      exact ⟨now, t, s, rfl, ht, hs, ha⟩
  | operate o =>
      change (c.perform o).stage? n = _ at hx
      rw [stage?_perform, hq] at hx
      cases hx
  | submit call target =>
      change (c.submit call target).2.stage? n = _ at hx
      cases hr : (c.submit call target).1 with
      | settled r =>
          rw [(submit_settled hr).1, hq] at hx
          cases hx
      | task m =>
          obtain ⟨id, p, seat, -, -, -, hc⟩ := submit_task hr
          rw [hc, stage?_append, hq] at hx
          split at hx <;> cases hx
  | abort m =>
      change (c.abort m).stage? n = _ at hx
      rw [stage?_abort, hq] at hx
      split at hx <;> cases hx

theorem aborted_after {e : Event} (ha : (c.after e).stage? n = some .aborted)
    (hno : c.stage? n ≠ some .aborted) : e = .abort n := by
  have hwork (now : Nat) (t : Task) (s : Server) (w : Work) :
      (c.work now t s w).stage? n ≠ some .aborted := by
    intro hx
    rw [stage?_work] at hx
    split at hx
    · obtain ⟨s', -, hs'⟩ := Option.map_eq_some_iff.1 hx
      split at hs' <;> cases hs'
    · exact hno hx
  cases e with
  | operate o =>
      change (c.perform o).stage? n = _ at ha
      rw [stage?_perform] at ha
      exact absurd ha hno
  | submit call target =>
      change (c.submit call target).2.stage? n = _ at ha
      cases hr : (c.submit call target).1 with
      | settled r =>
          rw [(submit_settled hr).1] at ha
          exact absurd ha hno
      | task m =>
          obtain ⟨id, p, seat, -, -, -, hc⟩ := submit_task hr
          rw [hc, stage?_append] at ha
          split at ha
          · cases ha
          · exact absurd ha hno
  | run now m =>
      change (c.runTaskAt now m).stage? n = _ at ha
      rcases runTaskAt_cases c now m with hc | ⟨t, -, ⟨x, -, hc⟩ | ⟨s, w, -, hc⟩⟩
      · exact absurd (hc ▸ ha) hno
      · rw [hc, stage?_setStage] at ha
        split at ha
        · obtain ⟨s', -, hs'⟩ := Option.map_eq_some_iff.1 ha
          cases hs'
        · exact absurd ha hno
      · exact absurd (hc ▸ ha) (hwork now t s w)
  | abort m =>
      change (c.abort m).stage? n = _ at ha
      rw [stage?_abort] at ha
      split at ha
      · next hm => rw [hm]
      · exact absurd ha hno

end Cluster

end Switchboard
