import Switchboard.Proofs.Dispatch.Attempt

namespace Switchboard

def Signal.sentBy? (place : Nat) : Signal → Option Nat
  | .sent p n => if p = place then some n else none
  | _ => none

def Signal.invoked? : Signal → Option Nat
  | .invoked n => some n
  | _ => none

@[simp] theorem Signal.invoked?_sent (place n : Nat) : (Signal.sent place n).invoked? = none := rfl

@[simp] theorem Signal.invoked?_invoked (n : Nat) : (Signal.invoked n).invoked? = some n := rfl

@[simp] theorem Signal.invoked?_returned (n : Nat) (r : Except Fault Json) :
    (Signal.returned n r).invoked? = none := rfl

def sentBy (place : Nat) (log : List Signal) : List Nat := log.filterMap (·.sentBy? place)

def invocations (place : Nat) (log : List Signal) : List Nat :=
  (log.filterMap Signal.invoked?).filter (· ∈ sentBy place log)

namespace Traffic

def begin (c : Cluster) : Traffic := ⟨World.start (.cluster c), []⟩

end Traffic

variable {c : Cluster} {n m : Nat}

namespace Cluster

theorem sentBy_signals (c : Cluster) (e : Event) (place : Nat) :
    sentBy place (c.signals e) = [] := by
  have hpause (n : Nat) (p : Pause) : (p.signals n).filterMap (·.sentBy? place) = [] := by
    cases p <;> simp [Pause.signals, Signal.sentBy?]
  cases e with
  | run now n =>
      simp only [sentBy, signals, runSignals]
      split
      · rfl
      split
      · split
        · rfl
        · rw [List.filterMap_cons_none rfl]
          exact hpause _ _
      · split
        · exact hpause _ _
        · rfl
      · rfl
  | _ => rfl

theorem invoked_of_history {seen : List Signal} {s : Option Stage} (h : History n seen s) :
    seen.filterMap Signal.invoked? = [] ∨ seen.filterMap Signal.invoked? = [n] := by
  rcases s with _ | s
  · rw [show seen = [] from h]
    exact Or.inl rfl
  cases s with
  | queued =>
      rw [show seen = [] from h]
      exact Or.inl rfl
  | refused e =>
      rw [show seen = [] from h]
      exact Or.inl rfl
  | working wake rest =>
      rw [show seen = [.invoked n] from h]
      exact Or.inr rfl
  | finished r =>
      obtain ⟨s, v, -, rfl⟩ := h
      exact Or.inr rfl
  | aborted =>
      rcases h with rfl | rfl
      · exact Or.inl rfl
      · exact Or.inr rfl

end Cluster

theorem sentBy_append (place : Nat) (l l' : List Signal) :
    sentBy place (l ++ l') = sentBy place l ++ sentBy place l' := List.filterMap_append

theorem sentBy_sent (place place' : Nat) (n : Option Nat) :
    sentBy place (n.toList.map (.sent place')) = if place' = place then n.toList else [] := by
  cases n with
  | none => simp [sentBy]
  | some n =>
      simp only [sentBy, Option.toList_some, List.map_cons, List.map_nil, List.filterMap_cons,
        List.filterMap_nil, Signal.sentBy?]
      split <;> simp_all

theorem filter_concerns_sent (n place : Nat) (m : Option Nat) :
    (m.toList.map (Signal.sent place)).filter (·.concerns n) = [] := by
  cases m <;> rfl

theorem filter_invoked (n : Nat) (log : List Signal) :
    (log.filterMap Signal.invoked?).filter (· = n) =
      (log.filter (·.concerns n)).filterMap Signal.invoked? := by
  induction log with
  | nil => rfl
  | cons s log ih =>
      cases s with
      | sent place m => simpa [List.filterMap_cons] using ih
      | invoked m => by_cases hm : m = n <;> simp [hm, ih]
      | returned m r => by_cases hm : m = n <;> simpa [hm, List.filterMap_cons] using ih

structure Tracked (t : Traffic) (c : Cluster) (log : List Signal) : Prop where
  cluster : t.world.substrate = .cluster c
  sound : c.Sound
  history : ∀ n, Cluster.History n (log.filter (·.concerns n)) (c.stage? n)
  traced : ∀ place f, t.flights[place]? = some f → c.Traced (sentBy place log) f.phase
  unsent : ∀ place, t.flights.length ≤ place → sentBy place log = []

variable {t : Traffic} {log : List Signal}

theorem Tracked.cluster_event (h : Tracked t c log) (e : Cluster.Event) :
    Tracked (t.after (.cluster e)) (c.after e) (log ++ t.signals (.cluster e)) := by
  rw [Traffic.signals_cluster h.cluster]
  have hsent (place : Nat) : sentBy place (log ++ c.signals e) = sentBy place log := by
    rw [sentBy_append, Cluster.sentBy_signals, List.append_nil]
  refine ⟨by simp [Traffic.after, World.mapCluster, h.cluster], h.sound.after e, fun n => ?_,
    fun place f hf => ?_, fun place hp => ?_⟩
  · rw [List.filter_append]
    exact (h.history n).progress (Cluster.progress_after h.sound e n)
  · rw [hsent]
    exact (h.traced place f hf).keep (Cluster.keeps_after h.sound e)
  · rw [hsent]
    exact h.unsent place hp

theorem Tracked.launch (h : Tracked t c log) (i : Invocation) :
    Tracked (t.after (.launch i)) c log := by
  refine ⟨h.cluster, h.sound, h.history, fun place f hf => ?_, fun place hp => ?_⟩
  · rcases Cluster.getElem?_concat_eq_some hf with hf | ⟨rfl, rfl⟩
    · exact h.traced place f hf
    · rw [h.unsent _ (Nat.le_refl _)]
      unfold Flight.launch
      split
      · exact fun k hk => by simp at hk
      · exact Or.inl fun k hk => by simp at hk
  · refine h.unsent place ?_
    simp only [Traffic.after, List.length_append, List.length_singleton] at hp
    omega

theorem Tracked.step (h : Tracked t c log) (place : Nat) :
    ∃ c', Tracked (t.after (.step place)) c' (log ++ t.signals (.step place)) := by
  cases hf : t.flights[place]? with
  | none =>
      have hsignals : t.signals (.step place) = [] := by simp only [Traffic.signals, hf]
      have hafter : t.after (.step place) = t := by simp only [Traffic.after, hf]
      rw [hsignals, hafter, List.append_nil]
      exact ⟨c, h⟩
  | some f =>
      have hdrive : ∃ c', (f.drive 1 t.world).2.substrate = .cluster c' ∧ Cluster.Quiet c c' ∧
          c'.Traced (sentBy place log ++
            (Flight.handed? f.phase (f.drive 1 t.world).1.phase).toList)
            (f.drive 1 t.world).1.phase := by
        have hfollow := (h.traced place f hf).follow t.world.now
        rcases Flight.drive_one t.world f with ⟨-, hone⟩ | ⟨ph, w', hstep, hone⟩
        · rw [hone]
          refine ⟨c, h.cluster, Or.inl rfl, ?_⟩
          simpa [Flight.handed?_follow_right, Flight.handed?_self] using hfollow
        · rw [hone]
          obtain ⟨c', hw, hq, ht⟩ := Cluster.traced_step h.cluster h.sound
            (fun n => ⟨_, h.history n⟩) hfollow hstep
          refine ⟨c', hw, hq, ?_⟩
          rw [Flight.handed?_follow_left] at ht
          rw [Flight.handed?_follow_right]
          exact ht.follow w'.now
      obtain ⟨c', hw, hq, ht⟩ := hdrive
      have hlt := (List.getElem?_eq_some_iff.1 hf).1
      rw [Traffic.signals_step hf, Traffic.after_step hf]
      refine ⟨c', hw, hq.sound h.sound, fun n => ?_, fun other g hg => ?_, fun other hother => ?_⟩
      · rw [List.filter_append, filter_concerns_sent, List.append_nil]
        exact hq.history h.sound (h.history n)
      · rw [sentBy_append, sentBy_sent]
        by_cases hne : place = other
        · subst hne
          rw [List.getElem?_set_self hlt] at hg
          cases hg
          simpa using ht
        · rw [List.getElem?_set_ne hne] at hg
          simpa [hne] using (h.traced other g hg).keep (hq.keeps h.sound)
      · rw [List.length_set] at hother
        rw [sentBy_append, sentBy_sent, h.unsent other hother, if_neg (by omega), List.append_nil]

theorem Tracked.after (h : Tracked t c log) (e : Traffic.Event) :
    ∃ c', Tracked (t.after e) c' (log ++ t.signals e) := by
  cases e with
  | cluster e => exact ⟨_, h.cluster_event e⟩
  | pass ticks =>
      have hlog : log ++ t.signals (.pass ticks) = log := List.append_nil log
      rw [hlog]
      exact ⟨c, h.cluster, h.sound, h.history, h.traced, h.unsent⟩
  | launch i =>
      have hlog : log ++ t.signals (.launch i) = log := List.append_nil log
      rw [hlog]
      exact ⟨c, h.launch i⟩
  | step place => exact h.step place

theorem Tracked.afterAll (h : Tracked t c log) (es : List Traffic.Event) :
    ∃ c', Tracked (t.afterAll es) c' (log ++ t.log es) := by
  induction es generalizing t c log with
  | nil => exact ⟨c, by simpa [Traffic.afterAll, Traffic.log] using h⟩
  | cons e es ih =>
      obtain ⟨c', h'⟩ := h.after e
      obtain ⟨c'', h''⟩ := ih h'
      rw [List.append_assoc] at h''
      exact ⟨c'', h''⟩

theorem tracked_begin (h : c.Sound) (hempty : c.tasks = []) : Tracked (.begin c) c [] := by
  refine ⟨rfl, h, fun n => ?_, fun place f hf => ?_, fun _ _ => rfl⟩
  · simp [Cluster.stage?, hempty, Cluster.History]
  · simp [Traffic.begin] at hf

theorem Tracked.invoked_nil (h : Tracked t c log) (hr : c.Refused n) :
    (log.filterMap Signal.invoked?).filter (· = n) = [] := by
  obtain ⟨e, he⟩ := hr
  have hn := h.history n
  rw [he] at hn
  rw [filter_invoked, show log.filter (·.concerns n) = [] from hn]
  rfl

theorem Tracked.invocations_of_refused (h : Tracked t c log) {place : Nat}
    (hall : ∀ k ∈ sentBy place log, c.Refused k) : invocations place log = [] := by
  rw [invocations, List.filter_eq_nil_iff]
  intro k hk hsent
  have hnone := h.invoked_nil (hall k (by simpa using hsent))
  exact List.filter_eq_nil_iff.1 hnone k hk (by simp)

theorem Tracked.invocations_of_spent (h : Tracked t c log) {place : Nat}
    (hm : m ∈ sentBy place log) (hrest : ∀ k ∈ sentBy place log, k ≠ m → c.Refused k) :
    invocations place log = (log.filter (·.concerns m)).filterMap Signal.invoked? := by
  rw [← filter_invoked, invocations]
  refine List.filter_congr fun k hk => ?_
  by_cases hne : k = m
  · simp [hne, hm]
  · have hnot : k ∉ sentBy place log := by
      intro hsent
      have hnone := h.invoked_nil (hrest k hsent hne)
      exact List.filter_eq_nil_iff.1 hnone k hk (by simp)
    simp [hne, hnot]

theorem Tracked.single (h : Tracked t c log) {place : Nat} {f : Flight}
    (hf : t.flights[place]? = some f) :
    (invocations place log).length ≤ 1 ∧
      (∀ v tick, f.phase = .settled (.ok v) tick →
        ∃ n, invocations place log = [n] ∧ .returned n (.ok v) ∈ log) ∧
      ∀ e tick, f.phase = .settled (.error e) tick → e.isUnserved = true →
        invocations place log = [] := by
  have ht := h.traced place f hf
  have hspent (hs : ∃ m, ∀ k ∈ sentBy place log, k ≠ m → c.Refused k) :
      (invocations place log).length ≤ 1 := by
    obtain ⟨m, hrest⟩ := hs
    by_cases hm : m ∈ sentBy place log
    · rw [h.invocations_of_spent hm hrest]
      rcases Cluster.invoked_of_history (h.history m) with hi | hi <;> rw [hi] <;> simp
    · have hall : ∀ k ∈ sentBy place log, c.Refused k := by
        intro k hk
        exact hrest k hk fun hkm => hm (hkm ▸ hk)
      rw [h.invocations_of_refused hall]
      exact Nat.zero_le _
  refine ⟨hspent ?_, ?_, ?_⟩
  · exact ht.spent
  · intro v tick hv
    rw [hv] at ht
    obtain ⟨m, hm, hs, hrest⟩ := ht
    have hhist := h.history m
    rw [hs] at hhist
    obtain ⟨srv, r, hr, hlog⟩ := hhist
    obtain rfl := Cluster.report_eq_ok hr.symm
    refine ⟨m, ?_, ?_⟩
    · rw [h.invocations_of_spent hm hrest, hlog]
      rfl
    · refine (List.mem_filter.1 (?_ : _ ∈ log.filter (·.concerns m))).1
      rw [hlog]
      simp
  · intro e tick he hu
    rw [he] at ht
    rcases ht with hall | ⟨hno, -⟩
    · exact h.invocations_of_refused hall
    · rw [hu] at hno
      cases hno

/-- A call reaches at most one handler in the whole of a run, also after its caller has been given
a timeout. If it comes to a value then one handler returned it, and if no member would take it then
no handler was reached. -/
theorem single_call {config : ClusterConfig} {c₀ : Cluster}
    (hnew : Cluster.create config = .ok c₀) (es : List Traffic.Event) {place : Nat} {f : Flight}
    (hf : ((Traffic.begin c₀).afterAll es).flights[place]? = some f) :
    let log := (Traffic.begin c₀).log es
    (invocations place log).length ≤ 1 ∧
      (∀ v tick, f.phase = .settled (.ok v) tick →
        ∃ n, invocations place log = [n] ∧ .returned n (.ok v) ∈ log) ∧
      ∀ e tick, f.phase = .settled (.error e) tick → e.isUnserved = true →
        invocations place log = [] := by
  intro log
  obtain ⟨rfl, hpos⟩ := Cluster.create_eq hnew
  obtain ⟨c, h⟩ := (tracked_begin (Cluster.sound_new hpos) rfl).afterAll es
  exact h.single hf

def joining : Traffic.Event :=
  .cluster (.operate (.add ⟨"a", "x", false⟩ [("S", { respond := fun _ _ _ => .done (.ok .null) })]))

def unhurried : Invocation :=
  ⟨"s", "S", ⟨⟨"m", []⟩, .balanced .sticky, .ofMillis 100, false⟩, .standalone 0, [],
    ⟨.ofMillis 5, none⟩, ⟨"f", 1⟩⟩

def rejoining : List Traffic.Event :=
  [joining, .launch unhurried, .step 0, .cluster (.operate (.remove "a")), joining,
    .cluster (.run 0 0), .step 0, .pass 5, .step 0, .step 0, .cluster (.run 5 1), .step 0]

theorem single_call_of_stale_route :
    ((Traffic.begin (.new ⟨1, "s"⟩)).afterAll rejoining).flights[0]? =
        some ⟨unhurried, .settled (.ok .null) 5⟩ ∧
      ∃ n, invocations 0 ((Traffic.begin (.new ⟨1, "s"⟩)).log rejoining) = [n] := by
  have hnew : Cluster.create ⟨1, "s"⟩ = .ok (.new ⟨1, "s"⟩) := rfl
  have hf : ((Traffic.begin (.new ⟨1, "s"⟩)).afterAll rejoining).flights[0]? =
      some ⟨unhurried, .settled (.ok .null) 5⟩ := rfl
  obtain ⟨n, hn, -⟩ := (single_call hnew rejoining hf).2.1 .null 5 rfl
  exact ⟨hf, n, hn⟩

end Switchboard
