import Switchboard.Proofs.Dispatch.Passage

namespace Switchboard

variable {i : Invocation} {w w' : World} {f : Flight} {d : Diary} {p : Pending} {ph ph' : Phase}

namespace World

theorem isAborted_iff {n : Nat} : w.isAborted n = true ↔ w.stage? n = some .aborted := by
  unfold isAborted
  split
  · next h => simp [h]
  · next h => simpa using h

theorem stage?_cluster {c : Cluster} (hs : w.substrate = .cluster c) (n : Nat) :
    w.stage? n = c.stage? n := by
  simp [stage?, cluster?, hs]

theorem taskCount_cluster {c : Cluster} (hs : w.substrate = .cluster c) :
    w.taskCount = c.tasks.length := by
  simp [taskCount, cluster?, hs]

theorem interruptions_eq_nil (hcount : w'.interrupted = w.interrupted)
    (haborted : ∀ n, w'.isAborted n = true → w.isAborted n = true) : w.interruptions w' = [] := by
  have hnone : ((List.range w'.taskCount).filter fun n => w'.isAborted n && !w.isAborted n) = [] := by
    refine List.filter_eq_nil_iff.2 fun n _ => ?_
    cases ha : w'.isAborted n with
    | false => simp
    | true => simp [haborted n ha]
  rw [interruptions, hcount, hnone, Nat.sub_self]
  rfl

theorem interruptions_self (w : World) : w.interruptions w = [] :=
  interruptions_eq_nil rfl fun _ => id

theorem isAborted_submit (call : Call) (target : Option Member) {n : Nat}
    (h : (w.submit call target).2.isAborted n = true) : w.isAborted n = true := by
  rw [isAborted_iff] at h ⊢
  cases hs : w.substrate with
  | scripted r script =>
      cases script <;> simp [stage?, cluster?, submit, place, hs] at h
  | cluster c =>
      have hsubmit : (w.submit call target).2.substrate = .cluster (c.submit call target).2 := by
        simp [submit, hs, place_cluster]
      rw [stage?_cluster hsubmit] at h
      rw [stage?_cluster hs]
      cases hr : (c.submit call target).1 with
      | settled r => rwa [(Cluster.submit_settled hr).1] at h
      | task m =>
          obtain ⟨id, q, seat, -, -, -, hc⟩ := Cluster.submit_task hr
          rw [hc, Cluster.stage?_append] at h
          split at h
          · cases h
          · exact h

def Bears (w : World) (p : Pending) : Prop :=
  match w.substrate with
  | .scripted _ _ => ∀ m, p.interrupt ≠ some (.abort m)
  | .cluster c => ∀ hook, p.interrupt = some hook →
      ∃ m < c.tasks.length, hook = .abort m ∧ p.hold = .task m

theorem Bears.evolve (h : w.Bears p) (hw : w.Evolves w') : w'.Bears p := by
  unfold Bears Evolves at *
  cases hs : w.substrate <;> cases hs' : w'.substrate <;> simp only [hs, hs'] at h hw ⊢
  · exact h
  · intro hook hp
    obtain ⟨m, hm, hhook⟩ := h hook hp
    exact ⟨m, Nat.lt_of_lt_of_le hm hw, hhook⟩

theorem Bears.follow (h : w.Bears p) (now : Nat) : w.Bears (p.follow now) := by
  obtain ⟨hold, hook⟩ := p
  cases hold with
  | task m => exact h
  | course due course =>
      unfold Bears at *
      cases hs : w.substrate with
      | scripted r script =>
          simp only [hs] at h ⊢
          exact h
      | cluster c =>
          simp only [hs] at h ⊢
          intro x hx
          obtain ⟨m, -, -, hhold⟩ := h x hx
          cases hhold

theorem bears_submit (w : World) (call : Call) (target : Option Member) :
    (w.submit call target).2.Bears (w.submit call target).1 := by
  cases hs : w.substrate with
  | scripted r script =>
      cases script with
      | nil => simp [Bears, submit, place, hs, Pending.settled]
      | cons next rest =>
          simp only [Bears, submit, place, hs, Pending.ofScript]
          intro m
          split <;> simp
  | cluster c =>
      simp only [Bears, submit, hs, place_cluster]
      intro hook hp
      cases hr : (c.submit call target).1 with
      | settled r => simp [hr, Cluster.Receipt.pending, Pending.settled] at hp
      | task m =>
          obtain ⟨id, q, seat, -, -, rfl, hc⟩ := Cluster.submit_task hr
          rw [hr] at hp
          cases hp
          exact ⟨c.tasks.length, by simp [hc], rfl, rfl⟩

theorem interruptions_abort {c : Cluster} {m : Nat} (hs : w.substrate = .cluster c)
    (hm : m < c.tasks.length) (hr : c.taskResult? m = none) :
    w.interruptions (w.mapCluster (·.abort m)) = [.abort m] := by
  obtain ⟨s, hstage⟩ : ∃ s, c.stage? m = some s :=
    ⟨c.tasks[m].stage, by simp [Cluster.stage?, hm]⟩
  have hsub : (w.mapCluster (·.abort m)).substrate = .cluster (c.abort m) := by
    simp [mapCluster, hs]
  have hcount : (w.mapCluster (·.abort m)).interrupted = w.interrupted := by
    simp [mapCluster, hs]
  have htasks : (w.mapCluster (·.abort m)).taskCount = c.tasks.length :=
    (taskCount_cluster hsub).trans (List.length_modify ..)
  have hopen : s.result? m = none := by
    simpa [Cluster.taskResult?_eq, hstage] using hr
  have hseen (n : Nat) :
      ((w.mapCluster (·.abort m)).isAborted n && !w.isAborted n) = decide (n = m) := by
    rw [Bool.eq_iff_iff]
    simp only [Bool.and_eq_true, Bool.not_eq_true', Bool.eq_false_iff, ne_eq, isAborted_iff,
      stage?_cluster hsub, stage?_cluster hs, Cluster.stage?_abort, decide_eq_true_eq]
    by_cases hn : m = n
    · subst hn
      cases s <;> simp_all [Stage.abort, Stage.result?]
    · simp [hn, Ne.symm hn]
  have hone : ((List.range c.tasks.length).filter fun n => decide (n = m)) = [m] := by
    rw [List.filter_eq, List.count_range, if_pos hm, List.replicate_one]
  rw [interruptions, hcount, Nat.sub_self, htasks, List.filter_congr fun n _ => hseen n, hone]
  rfl

theorem interruptions_interrupt (hb : w.Bears p) (hr : w.result? p = none) :
    w.interruptions (w.interrupt p).2 = p.interrupt.toList := by
  cases hp : p.interrupt with
  | none =>
      simp only [interrupt, hp]
      exact interruptions_self w
  | some hook =>
      simp only [interrupt, hp, runHook, Option.toList_some]
      cases hs : w.substrate with
      | scripted r script =>
          simp only [Bears, hs] at hb
          cases hook with
          | count =>
              simp [interruptions, taskCount, cluster?]
          | abort m => exact absurd hp (hb m)
      | cluster c =>
          simp only [Bears, hs] at hb
          obtain ⟨m, hm, rfl, hhold⟩ := hb hook hp
          refine interruptions_abort hs hm ?_
          simpa [result?, hhold, cluster?, hs] using hr

end World

theorem Pending.interrupt_follow (p : Pending) (now : Nat) :
    (p.follow now).interrupt = p.interrupt := by
  obtain ⟨hold, hook⟩ := p
  cases hold <;> rfl

namespace Flight

def timedOut (f : Flight) : Bool :=
  match f.phase with
  | .settled (.error e) _ => e.isTimeout
  | _ => false

end Flight

inductive Diary.Tells (i : Invocation) (w : World) (d : Diary) : Phase → Prop
  | preparing {n : Nat} : d.obtained.length = n → d.hooks = [] → (∀ k ∈ d.answered, k ≤ n) →
      Tells i w d (.preparing (n + 1))
  | waiting {before : List Pending} {q p : Pending} (deadline : Nat) :
      d.obtained = before ++ [q] → q.interrupt = p.interrupt → w.Bears p → d.hooks = [] →
      (∀ k ∈ d.answered, k ≤ before.length) →
      Tells i w d (.waiting (before.length + 1) p deadline)
  | resting {n : Nat} (wake : Nat) : d.obtained.length = n → d.hooks = [] →
      (∀ k ∈ d.answered, k ≤ n) → Tells i w d (.resting n wake)
  | expired {before : List Pending} {q : Pending} {e : DispatchError} (tick : Nat) :
      e.isTimeout = true → d.obtained = before ++ [q] →
      d.hooks = (if i.route.interrupt then q.interrupt.toList else []).map
        (some (before.length + 1), ·) →
      (∀ k ∈ d.answered, k ≤ before.length) → Tells i w d (.settled (.error e) tick)
  | settled {r : Except DispatchError Json} (tick : Nat) : (∀ e, r = .error e → e.isTimeout = false) →
      d.hooks = [] → Tells i w d (.settled r tick)

namespace Diary.Tells

theorem evolve (h : d.Tells i w ph) (hw : w.Evolves w') : d.Tells i w' ph := by
  cases h with
  | preparing hlength hhooks hanswered => exact .preparing hlength hhooks hanswered
  | waiting deadline hobtained hhook hbears hhooks hanswered =>
      exact .waiting deadline hobtained hhook (hbears.evolve hw) hhooks hanswered
  | resting wake hlength hhooks hanswered => exact .resting wake hlength hhooks hanswered
  | expired tick he hobtained hhooks hanswered => exact .expired tick he hobtained hhooks hanswered
  | settled tick hr hhooks => exact .settled tick hr hhooks

theorem follow (h : d.Tells i w ph) (now : Nat) : d.Tells i w (Flight.follow now ph) := by
  cases h with
  | waiting deadline hobtained hhook hbears hhooks hanswered =>
      exact .waiting deadline hobtained (hhook.trans (Pending.interrupt_follow ..).symm)
        (hbears.follow now) hhooks hanswered
  | preparing hlength hhooks hanswered => exact .preparing hlength hhooks hanswered
  | resting wake hlength hhooks hanswered => exact .resting wake hlength hhooks hanswered
  | expired tick he hobtained hhooks hanswered => exact .expired tick he hobtained hhooks hanswered
  | settled tick hr hhooks => exact .settled tick hr hhooks

end Diary.Tells

theorem World.interruptions_prepare (i : Invocation) (w : World) :
    w.interruptions (i.prepare w).2 = [] := by
  obtain ⟨cursors, consulted, hp⟩ := Flight.prepare_frame i w
  rw [hp]
  exact interruptions_eq_nil rfl fun _ => id

theorem World.interruptions_submit (i : Invocation) (w : World) (call : Call)
    (target : Option Member) : w.interruptions ((i.prepare w).2.submit call target).2 = [] := by
  obtain ⟨cursors, consulted, hp⟩ := Flight.prepare_frame i w
  rw [hp]
  exact interruptions_eq_nil rfl fun _ => isAborted_submit call target

theorem Invocation.prepare_not_timeout {e : DispatchError} (h : (i.prepare w).1 = .error e) :
    e.isTimeout = false := by
  rcases Invocation.prepare_error h with ⟨e', rfl⟩ | ⟨source, rfl⟩ <;> rfl

theorem Invocation.verdict_not_timeout {n : Nat} {r : CallResult} {e : DispatchError}
    (h : i.verdict n r = .error e) : e.isTimeout = false := by
  cases r with
  | ok v => cases h
  | error x =>
      cases x <;>
        · cases h
          rfl

theorem Diary.Tells.step (h : d.Tells i w ph) (hgoes : Flight.Goes i w ph ph' w') (now : Nat) :
    (d.add w w' ph (Flight.follow now ph')).Tells i w' (Flight.follow now ph') := by
  cases hgoes with
  | unprepared hprep =>
      cases h with
      | preparing hlength hhooks hanswered =>
          refine .settled _ (fun e he => ?_) ?_
          · cases he
            exact Invocation.prepare_not_timeout hprep
          · simp [add, hhooks, World.interruptions_prepare]
  | submit hprep =>
      cases h with
      | preparing hlength hhooks hanswered =>
          subst hlength
          refine .waiting _ rfl rfl ((World.bears_submit ..).follow now) ?_ ?_
          · simp [add, hhooks, World.interruptions_submit]
          · simpa [add, Flight.answered?] using hanswered
  | @conclude n deadline p r hr =>
      cases h with
      | @waiting before q _ _ hobtained hhook hbears hhooks hanswered =>
          rcases Flight.conclude_cases i (before.length + 1) w.now r with hc | ⟨-, hc⟩
          · rw [hc]
            refine .settled _ (fun e => Invocation.verdict_not_timeout) ?_
            simp [add, hhooks, World.interruptions_self]
          · rw [hc]
            refine .resting _ ?_ ?_ fun k hk => ?_
            · simp [add, hobtained, Flight.obtained?]
            · simp [add, hhooks, World.interruptions_self]
            · simp only [add, Flight.answered?, hr, Option.map_some, Option.toList_some,
                List.mem_append, List.mem_singleton] at hk
              rcases hk with hk | rfl
              · exact Nat.le_succ_of_le (hanswered k hk)
              · exact Nat.le_refl _
  | @expire n deadline p hr hd =>
      cases h with
      | @waiting before q _ _ hobtained hhook hbears hhooks hanswered =>
          have hobtained' : (d.add w (if i.route.interrupt then (w.interrupt p).2 else w)
              (.waiting (before.length + 1) p deadline)
              (.settled (.error (.timeout i.qualified i.route.timeout)) w.now)).obtained =
                before ++ [q] := by
            simp [add, hobtained, Flight.obtained?]
          refine .expired _ rfl hobtained' ?_ ?_
          · cases i.route.interrupt with
            | true =>
                simp [add, hhooks, World.interruptions_interrupt hbears hr, Flight.awaited?, hhook]
            | false => simp [add, hhooks, World.interruptions_self]
          · simpa [add, Flight.answered?, hr] using hanswered
  | wake hwake =>
      cases h with
      | resting _ hlength hhooks hanswered =>
          refine .preparing ?_ ?_ ?_
          · simpa [add, Flight.obtained?] using hlength
          · simp [add, hhooks, World.interruptions_self]
          · simpa [add, Flight.answered?] using hanswered

theorem Diary.add_idle (d : Diary) (hidle : Flight.step i w ph = none) :
    d.add w w ph ph = d := by
  have hobtained : Flight.obtained? ph ph = none := by cases ph <;> rfl
  have hanswered : Flight.answered? w ph = none := by
    cases ph with
    | waiting n p deadline =>
        simp only [Flight.step] at hidle
        split at hidle
        · cases hidle
        · next hr => simp [Flight.answered?, hr]
    | _ => rfl
  simp [add, hobtained, hanswered, World.interruptions_self]

theorem Passage.tells (h : Passage i w f d) : d.Tells i w f.phase := by
  induction h with
  | launch w =>
      unfold Flight.launch
      split
      · exact .preparing rfl rfl (by simp)
      · refine .settled _ (fun e he => ?_) rfl
        cases he
        rfl
  | elsewhere _ hw ih => exact ih.evolve hw
  | @step w f d hpassage ih =>
      rcases Flight.drive_goes w f with ⟨hidle, hone⟩ | ⟨ph, w', hgoes, hone⟩
      · rw [hone, d.add_idle hidle]
        exact ih.follow w.now
      · rw [hpassage.invocation] at hgoes
        rw [hone]
        exact (ih.follow w.now).step hgoes w'.now

structure Diary.Interrupts (i : Invocation) (f : Flight) (d : Diary) : Prop where
  hooks : ∀ n p, d.obtained[n]? = some p →
    (d.hooks.filter (·.1 = some (n + 1))).map (·.2) =
      if f.timedOut ∧ i.route.interrupt ∧ n + 1 = d.obtained.length then p.interrupt.toList else []
  obtained : ∀ e ∈ d.hooks, ∃ n p, e.1 = some (n + 1) ∧ d.obtained[n]? = some p ∧
    p.interrupt = some e.2
  answered : ∀ n ∈ d.answered, ∀ e ∈ d.hooks, e.1 ≠ some n
  last : f.timedOut = true → d.obtained ≠ []
  unasked : i.route.interrupt = false → d.hooks = []

theorem Diary.interrupts_of_nil (hno : f.timedOut = false) (hnone : d.hooks = []) :
    d.Interrupts i f where
  hooks n p _ := by simp [hno, hnone]
  obtained e he := by simp [hnone] at he
  answered n _ e he := by simp [hnone] at he
  last ht := by simp [hno] at ht
  unasked _ := hnone

theorem Diary.interrupts_of_timeout {before : List Pending} {q : Pending}
    (ht : f.timedOut = true) (hobtained : d.obtained = before ++ [q])
    (hhooks : d.hooks = (if i.route.interrupt then q.interrupt.toList else []).map
      (some (before.length + 1), ·))
    (hanswered : ∀ k ∈ d.answered, k ≤ before.length) : d.Interrupts i f where
  hooks n p hp := by
    have hlength : d.obtained.length = before.length + 1 := by simp [hobtained]
    by_cases hn : n = before.length
    · subst hn
      obtain rfl : q = p := by simpa [hobtained] using hp
      cases hi : i.route.interrupt <;> cases hq : q.interrupt <;>
        simp [hhooks, hi, hq, ht, hlength]
    · have hfalse : ¬(n + 1 = d.obtained.length) := by omega
      rw [if_neg fun hall => hfalse hall.2.2, hhooks, List.filter_map]
      simp [Ne.symm hn]
  obtained e he := by
    rw [hhooks] at he
    obtain ⟨hook, hmem, rfl⟩ := List.mem_map.1 he
    refine ⟨before.length, q, rfl, by simp [hobtained], ?_⟩
    split at hmem
    · simpa using hmem
    · cases hmem
  answered n hn e he := by
    rw [hhooks] at he
    obtain ⟨hook, -, rfl⟩ := List.mem_map.1 he
    have hle := hanswered n hn
    simp only [ne_eq, Option.some.injEq]
    omega
  last _ := by simp [hobtained]
  unasked hi := by simp [hhooks, hi]

theorem hook_runs_once (h : Passage i w f d) : d.Interrupts i f := by
  have htells := h.tells
  obtain ⟨invocation, phase⟩ := f
  cases htells with
  | expired tick he hobtained hhooks hanswered =>
      exact Diary.interrupts_of_timeout he hobtained hhooks hanswered
  | @settled r tick hr hhooks =>
      refine Diary.interrupts_of_nil ?_ hhooks
      cases r with
      | ok v => rfl
      | error e => exact hr e rfl
  | preparing _ hhooks _ => exact Diary.interrupts_of_nil rfl hhooks
  | waiting _ _ _ _ hhooks _ => exact Diary.interrupts_of_nil rfl hhooks
  | resting _ _ hhooks _ => exact Diary.interrupts_of_nil rfl hhooks

def resolute : Invocation :=
  ⟨"s", "S", ⟨⟨"m", []⟩, .balanced .sticky, .ofMillis 5, true⟩, .standalone 0, [],
    ⟨.ofMillis 2, none⟩, ⟨"f", 1⟩⟩

def forsaken : World :=
  .start (.scripted (.ofList [⟨"a", "x", false⟩])
    [⟨.result (.error (.memberLeft "a")), true⟩, ⟨.never, true⟩])

theorem hook_runs_once_of_forsaken :
    ∃ w f d, Passage resolute w f d ∧ f.timedOut = true ∧ d.obtained.length = 2 ∧
      d.answered = [1] ∧ w.interrupted = 1 ∧
      (d.hooks.filter (·.1 = some 1)).map (·.2) = [] ∧
      (d.hooks.filter (·.1 = some 2)).map (·.2) = [.count] := by
  have hretried := ((Passage.launch (i := resolute) forsaken).step.step.later 2).step
  have hpassage := (hretried.step.later 5).step
  have honce := hook_runs_once hpassage
  refine ⟨_, _, _, hpassage, rfl, rfl, rfl, rfl, ?_, ?_⟩
  · exact honce.hooks 0 _ rfl
  · exact honce.hooks 1 _ rfl

end Switchboard
