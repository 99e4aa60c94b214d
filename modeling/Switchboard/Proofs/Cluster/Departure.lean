import Switchboard.Proofs.Cluster.Finality

namespace Switchboard

theorem Server.Begun.complete {log more : List HookRun} (h : Server.Begun .terminated log)
    (hmore : Server.Begun .terminated (log ++ more)) : more = [] := by
  rcases List.eq_nil_or_concat more with rfl | ⟨between, last, rfl⟩
  · rfl
  -- A log that goes on ends with a stop once more, but there is one stop in all.
  have hstops := hmore.stopped_once
  rw [List.countP_append, h.stopped_once] at hstops
  have hlast : last.hook = .stop := by
    obtain ⟨hword, hne⟩ := hmore
    generalize hwhole : log ++ between.concat last = whole at hword hne
    cases hword with
    | unused => exact absurd rfl hne
    | stopped _ =>
        rw [List.concat_eq_append, ← List.append_assoc] at hwhole
        obtain ⟨-, hsame⟩ := List.append_inj' hwhole rfl
        rw [List.singleton_inj.1 hsame]
  rw [List.concat_eq_append, List.countP_append] at hstops
  simp [hlast] at hstops

namespace Cluster

structure Follows (c d : Cluster) : Prop where
  past : c.history <+: d.history
  gone : c.departed.map Seat.number ⊆ d.departed.map Seat.number

variable {c d d' : Cluster} {n : Nat} {left : Seat} {id : MemberId}

theorem Follows.refl (c : Cluster) : Follows c c := ⟨List.prefix_refl _, List.Subset.refl _⟩

theorem Follows.trans (h : Follows c d) (h' : Follows d d') : Follows c d' :=
  ⟨h.past.trans h'.past, List.Subset.trans h.gone h'.gone⟩

theorem Follows.quiet (h : Follows c d) (hc : Kept c) (hd : Kept d) (hleft : left ∈ c.departed) :
    d.hooksOf left.number = c.hooksOf left.number := by
  obtain ⟨more, hmore⟩ := h.past
  obtain ⟨later, hlater, hnumber⟩ := List.mem_map.1 (h.gone (List.mem_map_of_mem hleft))
  have hbefore := hc.begun left (List.mem_append_right _ hleft)
  have hafter := hd.begun later (List.mem_append_right _ hlater)
  rw [hc.ended left hleft] at hbefore
  rw [hd.ended later hlater, hnumber] at hafter
  have hsplit : d.hooksOf left.number =
      c.hooksOf left.number ++ (more.filter (·.1 = left.number)).map (·.2) := by
    simp [hooksOf, ← hmore]
  rw [hsplit] at hafter ⊢
  rw [hbefore.complete hafter, List.append_nil]

theorem follows_record (c : Cluster) (n : Nat) (runs : List HookRun) :
    Follows c (c.record n runs) :=
  ⟨List.prefix_append .., List.Subset.refl _⟩

theorem follows_updateServer (c : Cluster) (n : Nat) (s : Server) :
    Follows c (c.updateServer n s) := by
  refine ⟨List.prefix_refl _, ?_⟩
  simp [updateServer, Function.comp_def, number_update]

theorem follows_onMember (c : Cluster) (id : MemberId) (f : Server → Server × List HookRun) :
    Follows c (c.onMember id f) := by
  unfold onMember
  split
  · exact .refl c
  · exact ⟨List.prefix_append .., List.Subset.refl _⟩

theorem follows_announce (c : Cluster) (m : Move) : Follows c (c.announce m) := by
  unfold announce
  cases m.source with
  | none => exact follows_onMember ..
  | some id => exact (follows_onMember c id _).trans (follows_onMember ..)

theorem follows_announceAll (c : Cluster) (ms : List Move) : Follows c (c.announceAll ms) := by
  induction ms generalizing c with
  | nil => exact .refl c
  | cons m ms ih => exact (follows_announce c m).trans (ih _)

theorem follows_retire (c : Cluster) (e : MemberId × Seat) : Follows c (c.retire e) :=
  ⟨List.prefix_append .., List.subset_cons_self ..⟩

theorem follows_retireAll (c : Cluster) (entries : List (MemberId × Seat)) :
    Follows c (entries.foldl retire c) := by
  induction entries generalizing c with
  | nil => exact .refl c
  | cons e rest ih => exact (follows_retire c e).trans (ih _)

theorem Rewriting.follows (h : Rewriting c d) : Follows c d := by
  cases h with
  | moves t ms hw hd =>
      have hmoved := follows_announceAll { c with owners := t } ms
      exact ⟨hmoved.past, hmoved.gone⟩

theorem follows_addMember {m : Member} {services : List (String × Service)}
    (h : c.addMember m services = .ok d) : Follows c d := by
  unfold addMember at h
  split at h
  · cases h
  split at h
  · cases h
  cases h
  exact ⟨List.prefix_append .., List.Subset.refl _⟩

theorem follows_removeMember {r : Member × Cluster} (h : c.removeMember id = .ok r) :
    Follows c r.2 := by
  unfold removeMember at h
  split at h
  · cases h
  next seat hs =>
  cases h
  have hleft : Follows c ((c.without id seat).record seat.number seat.server.shutdown.2) :=
    ⟨List.prefix_append .., List.subset_cons_self ..⟩
  exact hleft.trans (rewriting_assignUnowned _).follows

theorem follows_shutdown (c : Cluster) : Follows c c.shutdown := by
  unfold shutdown
  split
  · have hretired := follows_retireAll
      { c with running := false, seats := [], owners := c.owners.map fun _ => none } c.seats
    exact ⟨hretired.past, hretired.gone⟩
  · exact .refl c

theorem follows_perform (c : Cluster) (o : Operation) : Follows c (c.perform o) := by
  cases hc : c.attempt o with
  | error e =>
      simp only [perform, hc]
      exact .refl c
  | ok d =>
      simp only [perform, hc]
      cases o with
      | add m services => exact follows_addMember hc
      | remove id =>
          obtain ⟨r, hr, rfl⟩ := attempt_remove hc
          exact follows_removeMember hr
      | move p id => exact (rewriting_movePartition hc).follows
      | rebalance =>
          cases hc
          exact (rewriting_rebalance c).follows
      | shutdown =>
          cases hc
          exact follows_shutdown c

theorem follows_run (c : Cluster) (now n : Nat) : Follows c (c.runTaskAt now n) := by
  rcases runTaskAt_cases c now n with hc | ⟨t, -, ⟨x, -, hc⟩ | ⟨s, w, -, hc⟩⟩
  · rw [hc]
    exact .refl c
  · rw [hc]
    exact ⟨List.prefix_refl _, List.Subset.refl _⟩
  · obtain ⟨services, stage, hw⟩ := work_eq c now t s w
    rw [hc, hw]
    have hserved := follows_updateServer c t.seat { s with services := services }
    exact ⟨hserved.past, hserved.gone⟩

theorem follows_after (c : Cluster) (e : Event) : Follows c (c.after e) := by
  cases e with
  | operate o => exact follows_perform c o
  | submit call target =>
      change Follows c (c.submit call target).2
      cases hr : (c.submit call target).1 with
      | settled r =>
          rw [(submit_settled hr).1]
          exact .refl c
      | task n =>
          obtain ⟨id, p, seat, -, -, -, hc⟩ := submit_task hr
          rw [hc]
          exact ⟨List.prefix_refl _, List.Subset.refl _⟩
  | run now n => exact follows_run c now n
  | abort n => exact ⟨List.prefix_refl _, List.Subset.refl _⟩

theorem follows_undergo (c : Cluster) (deed : Deed) : Follows c (c.undergo deed) := by
  cases deed with
  | event e => exact follows_after c e
  | ask n r =>
      change Follows c (c.ask n r)
      rcases ask_cases c n r with hc | ⟨s, s', runs, -, -, hc⟩
      · rw [hc]
        exact .refl c
      · rw [hc]
        exact (follows_updateServer c n s').trans (follows_record ..)

theorem follows_undergoAll (c : Cluster) (deeds : List Deed) : Follows c (c.undergoAll deeds) := by
  induction deeds generalizing c with
  | nil => exact .refl c
  | cons deed deeds ih => exact (follows_undergo c deed).trans (ih _)

end Cluster

end Switchboard
