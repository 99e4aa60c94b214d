import Switchboard.Proofs.Cluster.Lifecycle
import Switchboard.Proofs.Cluster.Procedure

namespace Switchboard

namespace Server

variable {s s' : Server} {runs log : List HookRun} {r : Request}

structure Begun (status : ServerStatus) (log : List HookRun) : Prop where
  word : Word status log
  begun : log ≠ []

theorem begun_start : Begun .running [⟨.start, .unstarted⟩] :=
  ⟨@Word.running [] (by simp), by simp⟩

theorem Begun.ne_unstarted {status : ServerStatus} (h : Begun status log) :
    status ≠ .unstarted := by
  rintro rfl
  exact h.begun h.word.eq_nil

theorem Begun.notice {h : Hook} (hlog : Begun s.status log) (changed : Bool)
    (hh : h.isChange = true) : Begun s.status (log ++ s.notice changed h) := by
  rw [notice_eq]
  split
  · next hrun => exact ⟨hlog.word.change hrun.2 ⟨hh, rfl⟩, by simp⟩
  · rwa [List.append_nil]

theorem Begun.handle (h : Begun s.status log) (hr : s.handle r = .ok (s', runs)) :
    Begun s'.status (log ++ runs) := by
  cases r with
  | start =>
      simp only [Server.handle, Server.start] at hr
      split at hr
      · next hs => exact absurd hs h.ne_unstarted
      · cases hr
        rwa [List.append_nil]
      · cases hr
      · cases hr
  | shutdown =>
      simp only [Server.handle, Server.shutdown] at hr
      split at hr
      · next hs => exact absurd hs h.ne_unstarted
      · next hs =>
          cases hr
          exact ⟨(hs ▸ h.word).stop, by simp⟩
      all_goals
        cases hr
        rwa [List.append_nil]
  | add p =>
      cases hr
      exact h.notice _ rfl
  | remove p =>
      cases hr
      exact h.notice _ rfl

theorem handle_terminated (h : s.status = .terminated) (hr : s.handle r = .ok (s', runs)) :
    s'.status = .terminated ∧ runs = [] := by
  have hafter := after_terminated (l := ⟨s, []⟩) h r
  simpa [Life.after, hr] using hafter

theorem Begun.stopped_once (h : Begun .terminated log) :
    log.countP (·.hook = .stop) = 1 := by
  obtain ⟨hword, hne⟩ := h
  have hle := hword.count_le.2
  cases hword with
  | unused => exact absurd rfl hne
  | @stopped body hbody =>
      have hmem : (⟨.stop, .terminating⟩ : HookRun) ∈
          (⟨.start, .unstarted⟩ :: body ++ [⟨.stop, .terminating⟩] : List HookRun) := by simp
      have hpos := List.countP_pos_iff (p := fun r : HookRun => r.hook = .stop).2 ⟨_, hmem, rfl⟩
      omega

end Server

namespace Cluster

variable {c d : Cluster} {n : Nat} {s s' : Server} {runs : List HookRun} {id : MemberId}
  {seat : Seat}

structure Kept (c : Cluster) : Prop where
  sorted : Keyed.Sorted c.seats
  distinct : (c.allSeats.map Seat.number).Nodup
  below : ∀ seat ∈ c.allSeats, seat.number < c.joined
  begun : ∀ seat ∈ c.allSeats, Server.Begun seat.server.status (c.hooksOf seat.number)
  ended : ∀ seat ∈ c.departed, seat.server.status = .terminated
  silent : ∀ n, c.joined ≤ n → c.hooksOf n = []

theorem kept_new (config : ClusterConfig) : Kept (new config) where
  sorted := Keyed.sorted_nil
  distinct := .nil
  below _ hs := by simp [allSeats, new, Keyed.values] at hs
  begun _ hs := by simp [allSeats, new, Keyed.values] at hs
  ended _ hs := by simp [new] at hs
  silent _ _ := rfl

theorem hooksOf_record_self (c : Cluster) (n : Nat) (runs : List HookRun) :
    (c.record n runs).hooksOf n = c.hooksOf n ++ runs := by
  have hmine : ((runs.map fun r => (n, r)).filter (·.1 = n)) = runs.map fun r => (n, r) :=
    List.filter_eq_self.2 fun e he => by
      obtain ⟨r, -, rfl⟩ := List.mem_map.1 he
      exact decide_eq_true rfl
  simp [hooksOf, record, List.filter_append, hmine, Function.comp_def]

theorem hooksOf_record_of_ne {k : Nat} (h : k ≠ n) (c : Cluster) (runs : List HookRun) :
    (c.record n runs).hooksOf k = c.hooksOf k := by
  simp [hooksOf, record, List.filter_append, Ne.symm h]

theorem number_update (n : Nat) (s : Server) (seat : Seat) :
    (Seat.update n s seat).number = seat.number := by
  unfold Seat.update
  split <;> rfl

theorem allSeats_updateServer (c : Cluster) (n : Nat) (s : Server) :
    (c.updateServer n s).allSeats = c.allSeats.map (Seat.update n s) := by
  simp [allSeats, updateServer, Keyed.values, Function.comp_def]

theorem Kept.server?_eq (h : Kept c) (hs : seat ∈ c.allSeats) :
    c.server? seat.number = some seat.server := by
  have hfind : c.allSeats.find? (·.number = seat.number) = some seat :=
    find?_of_nodup h.distinct hs
  change (c.allSeats.find? (·.number = seat.number)).map Seat.server = _
  rw [hfind]
  rfl

theorem exists_seat (hn : c.server? n = some s) :
    ∃ seat ∈ c.allSeats, seat.number = n ∧ seat.server = s := by
  obtain ⟨seat, hfind, hs⟩ := Option.map_eq_some_iff.1 hn
  exact ⟨seat, List.mem_of_find?_eq_some hfind, by simpa using List.find?_some hfind, hs⟩

theorem Kept.update (h : Kept c) (hn : c.server? n = some s)
    (hbegun : Server.Begun s'.status (c.hooksOf n ++ runs))
    (hended : s.status = .terminated → s'.status = .terminated) :
    Kept ((c.updateServer n s').record n runs) := by
  have hall : ((c.updateServer n s').record n runs).allSeats = c.allSeats.map (Seat.update n s') :=
    allSeats_updateServer c n s'
  obtain ⟨old, hold, hnumber, -⟩ := exists_seat hn
  have hserver {seat : Seat} (hs : seat ∈ c.allSeats) (he : seat.number = n) : seat.server = s := by
    subst he
    exact Option.some.inj ((h.server?_eq hs).symm.trans hn)
  refine ⟨(Keyed.sorted_map (Seat.update n s')).2 h.sorted, ?_, ?_, ?_, ?_, ?_⟩
  · rw [hall, List.map_map, Function.comp_def]
    simp only [number_update]
    exact h.distinct
  · rw [hall]
    intro _ hmem
    obtain ⟨seat, hs, rfl⟩ := List.mem_map.1 hmem
    rw [number_update]
    exact h.below seat hs
  · rw [hall]
    intro _ hmem
    obtain ⟨seat, hs, rfl⟩ := List.mem_map.1 hmem
    rw [number_update]
    by_cases he : seat.number = n
    · rw [he, hooksOf_record_self, Seat.update, if_pos he]
      exact hbegun
    · rw [hooksOf_record_of_ne he, Seat.update, if_neg he]
      exact h.begun seat hs
  · intro _ hmem
    obtain ⟨seat, hs, rfl⟩ := List.mem_map.1 hmem
    have hterminated := h.ended seat hs
    unfold Seat.update
    split
    · next he =>
        rw [hserver (List.mem_append_right _ hs) he] at hterminated
        exact hended hterminated
    · exact hterminated
  · intro k hk
    have hne : k ≠ n := by
      rintro rfl
      exact absurd (h.below old hold) (Nat.not_lt.2 (hnumber ▸ hk))
    rw [hooksOf_record_of_ne hne]
    exact h.silent k hk

theorem Kept.handle (h : Kept c) (hn : c.server? n = some s) {r : Server.Request}
    (hr : s.handle r = .ok (s', runs)) : Kept ((c.updateServer n s').record n runs) := by
  obtain ⟨seat, hs, rfl, rfl⟩ := exists_seat hn
  exact h.update hn ((h.begun seat hs).handle hr) fun ht => (Server.handle_terminated ht hr).1

theorem Kept.onMember_eq (h : Kept c) (hs : Keyed.find? id c.seats = some seat)
    (f : Server → Server × List HookRun) :
    c.onMember id f =
      (c.updateServer seat.number (f seat.server).1).record seat.number (f seat.server).2 := by
  have hmem := Keyed.mem_of_find? hs
  have hapart := List.nodup_append.1 (List.map_append (f := Seat.number) ▸ h.distinct)
  -- The entry of a name and the seat of a number are one and the same.
  have hnumber {e : MemberId × Seat} (he : e ∈ c.seats) : e.1 = id ↔ e.2.number = seat.number := by
    constructor
    · intro hid
      have hfind : Keyed.find? e.1 c.seats = some e.2 := Keyed.find?_of_mem h.sorted he
      rw [hid, hs] at hfind
      rw [Option.some.inj hfind]
    · intro hsame
      have hnodup : (c.seats.map (·.2.number)).Nodup := by
        simpa [Keyed.values, Function.comp_def] using hapart.1
      exact congrArg Prod.fst (List.inj_on_of_nodup_map hnodup he hmem hsame)
  have hseats : Keyed.insert id { seat with server := (f seat.server).1 } c.seats =
      c.seats.map fun e => (e.1, Seat.update seat.number (f seat.server).1 e.2) := by
    rw [Keyed.insert_eq_map _ h.sorted hs]
    refine List.map_congr_left fun e he => ?_
    unfold Seat.update
    by_cases hid : e.1 = id
    · have hfind : Keyed.find? e.1 c.seats = some e.2 := Keyed.find?_of_mem h.sorted he
      rw [hid, hs] at hfind
      obtain rfl := Option.some.inj hfind
      simp [hid]
    · rw [if_neg hid, if_neg (mt (hnumber he).2 hid)]
  have hdeparted : c.departed.map (Seat.update seat.number (f seat.server).1) = c.departed := by
    refine (List.map_congr_left fun other ho => ?_).trans (List.map_id' c.departed)
    have hne : seat.number ≠ other.number :=
      hapart.2.2 _ (List.mem_map_of_mem (List.mem_map_of_mem hmem)) _ (List.mem_map_of_mem ho)
    exact if_neg hne.symm
  simp only [onMember, hs, updateServer, hseats, hdeparted]

theorem Kept.onMember (h : Kept c) (id : MemberId) {f : Server → Server × List HookRun}
    {r : Server.Request} (hf : ∀ s : Server, s.handle r = .ok (f s)) : Kept (c.onMember id f) := by
  cases hs : Keyed.find? id c.seats with
  | none =>
      simp only [Cluster.onMember, hs]
      exact h
  | some seat =>
      have hmem : seat ∈ c.allSeats :=
        List.mem_append_left _ (List.mem_map_of_mem (Keyed.mem_of_find? hs))
      rw [h.onMember_eq hs]
      exact h.handle (h.server?_eq hmem) (hf seat.server)

theorem Kept.announce (h : Kept c) (m : Move) : Kept (c.announce m) := by
  unfold Cluster.announce
  cases m.source with
  | none => exact h.onMember (r := .add m.partition) _ fun _ => rfl
  | some id =>
      have hleft := h.onMember (r := .remove m.partition) id fun _ => rfl
      exact hleft.onMember (r := .add m.partition) _ fun _ => rfl

theorem Kept.announceAll (h : Kept c) (ms : List Move) : Kept (c.announceAll ms) := by
  induction ms generalizing c with
  | nil => exact h
  | cons m ms ih => exact ih (h.announce m)

theorem Kept.rewrite (h : Kept c) (owners : List (Option MemberId)) (tasks : List Task)
    (running : Bool) : Kept { c with owners := owners, tasks := tasks, running := running } :=
  ⟨h.sorted, h.distinct, h.below, h.begun, h.ended, h.silent⟩

theorem Kept.join (h : Kept c) (hfree : Keyed.find? s.member.id c.seats = none)
    (hs : s.status = .running) :
    Kept ((c.seating s).record c.joined [⟨.start, .unstarted⟩]) := by
  have hperm : ((c.seating s).record c.joined [⟨.start, .unstarted⟩]).allSeats.Perm
      (⟨c.joined, s⟩ :: c.allSeats) :=
    ((Keyed.insert_perm (⟨c.joined, s⟩ : Seat) hfree).map Prod.snd).append_right c.departed
  have hfresh : c.joined ∉ c.allSeats.map Seat.number := by
    intro hmem
    obtain ⟨seat, hseat, heq⟩ := List.mem_map.1 hmem
    exact absurd (h.below seat hseat) (heq ▸ Nat.lt_irrefl _)
  refine ⟨Keyed.sorted_insert h.sorted, ?_, ?_, ?_, h.ended, ?_⟩
  · exact (hperm.map Seat.number).nodup_iff.2 (List.nodup_cons.2 ⟨hfresh, h.distinct⟩)
  · intro seat hseat
    rcases List.mem_cons.1 (hperm.mem_iff.1 hseat) with rfl | hseat
    · exact Nat.lt_succ_self _
    · exact Nat.lt_succ_of_lt (h.below seat hseat)
  · intro seat hseat
    rcases List.mem_cons.1 (hperm.mem_iff.1 hseat) with rfl | hseat
    · rw [hooksOf_record_self]
      change Server.Begun s.status (c.hooksOf c.joined ++ _)
      rw [h.silent _ (Nat.le_refl _), hs]
      exact Server.begun_start
    · have hne : seat.number ≠ c.joined := (h.below seat hseat).ne
      rw [hooksOf_record_of_ne hne]
      exact h.begun seat hseat
  · intro n hn
    have hlt : c.joined < n := hn
    rw [hooksOf_record_of_ne hlt.ne']
    exact h.silent n hlt.le

theorem status_shutdown {log : List HookRun} (h : Server.Begun s.status log) :
    s.shutdown.1.status = .terminated := by
  have hterminating := h.word.not_terminating
  unfold Server.shutdown
  split
  · rfl
  · rfl
  · next hs => exact absurd hs hterminating
  · next hs => exact hs

theorem Kept.retire (h : Kept c) {rest : List (MemberId × Seat)}
    (hperm : c.seats.Perm ((id, seat) :: rest)) (hsorted : Keyed.Sorted rest) :
    Kept { c.retire (id, seat) with seats := rest } := by
  let others := Keyed.values rest ++ c.departed
  have hall : c.allSeats.Perm (seat :: others) := (hperm.map Prod.snd).append_right c.departed
  have hnew : ({ c.retire (id, seat) with seats := rest } : Cluster).allSeats.Perm
      (seat.shut :: others) := List.perm_middle
  have hdistinct := (hall.map Seat.number).nodup_iff.1 h.distinct
  have hmem : seat ∈ c.allSeats := hall.mem_iff.2 List.mem_cons_self
  have hother {other : Seat} (ho : other ∈ others) : other ∈ c.allSeats :=
    hall.mem_iff.2 (List.mem_cons_of_mem _ ho)
  refine ⟨hsorted, (hnew.map Seat.number).nodup_iff.2 hdistinct, ?_, ?_, ?_, ?_⟩
  · intro x hx
    rcases List.mem_cons.1 (hnew.mem_iff.1 hx) with rfl | hx
    · exact h.below seat hmem
    · exact h.below x (hother hx)
  · intro x hx
    rcases List.mem_cons.1 (hnew.mem_iff.1 hx) with rfl | hx
    · have hshut := (h.begun seat hmem).handle (r := .shutdown) rfl
      rw [← hooksOf_record_self] at hshut
      exact hshut
    · have hne : x.number ≠ seat.number := by
        intro heq
        exact (List.nodup_cons.1 hdistinct).1 (List.mem_map.2 ⟨x, hx, heq⟩)
      have hbegun := h.begun x (hother hx)
      rw [← hooksOf_record_of_ne hne] at hbegun
      exact hbegun
  · intro x hx
    rcases List.mem_cons.1 hx with rfl | hx
    · exact status_shutdown (h.begun seat hmem)
    · exact h.ended x hx
  · intro n hn
    have hne : n ≠ seat.number := by
      rintro rfl
      exact absurd (h.below seat hmem) (Nat.not_lt.2 hn)
    exact (hooksOf_record_of_ne hne c seat.server.shutdown.2).trans (h.silent n hn)

theorem Kept.retireAll {entries : List (MemberId × Seat)}
    (h : Kept { c with seats := entries }) :
    Kept (entries.foldl Cluster.retire { c with seats := [] }) := by
  induction entries generalizing c with
  | nil => exact h
  | cons e rest ih =>
      have hrest := (Keyed.sorted_cons.1 h.sorted).2
      exact ih (c := c.retire e) (h.retire (.refl _) hrest)

theorem Kept.rewriting (h : Kept c) (hc : Rewriting c d) : Kept d := by
  cases hc with
  | moves t ms hw hd => exact (h.rewrite t c.tasks c.running).announceAll ms

theorem Kept.addMember (h : Kept c) {m : Member} {services : List (String × Service)}
    (hc : c.addMember m services = .ok d) : Kept d := by
  unfold Cluster.addMember at hc
  split at hc
  · cases hc
  split at hc
  · cases hc
  next hm =>
  have hfree : Keyed.find? m.id c.seats = none := by
    simpa [Keyed.contains, Option.isSome_iff_ne_none] using hm
  cases hc
  exact h.join (s := { Server.new c.config.slice m services with status := .running }) hfree rfl

theorem Kept.removeMember (h : Kept c) {r : Member × Cluster} (hc : c.removeMember id = .ok r) :
    Kept r.2 := by
  unfold Cluster.removeMember at hc
  split at hc
  · cases hc
  next seat hs =>
  cases hc
  have hleft := h.retire (Keyed.erase_perm hs).symm (Keyed.sorted_erase id h.sorted)
  exact (hleft.rewrite _ _ _).rewriting (rewriting_assignUnowned _)

theorem Kept.shutdown (h : Kept c) : Kept c.shutdown := by
  unfold Cluster.shutdown
  split
  · let closing := { c with running := false, owners := c.owners.map fun _ => none }
    exact Kept.retireAll (c := closing) (h.rewrite _ _ _)
  · exact h

theorem Kept.perform (h : Kept c) (o : Operation) : Kept (c.perform o) := by
  cases hc : c.attempt o with
  | error e =>
      simp only [Cluster.perform, hc]
      exact h
  | ok d =>
      simp only [Cluster.perform, hc]
      cases o with
      | add m services => exact h.addMember hc
      | remove id =>
          obtain ⟨r, hr, rfl⟩ := attempt_remove hc
          exact h.removeMember hr
      | move p id => exact h.rewriting (rewriting_movePartition hc)
      | rebalance =>
          cases hc
          exact h.rewriting (rewriting_rebalance c)
      | shutdown =>
          cases hc
          exact h.shutdown

theorem Kept.run (h : Kept c) (now n : Nat) : Kept (c.runTaskAt now n) := by
  rcases runTaskAt_cases c now n with hc | ⟨t, -, ⟨x, -, hc⟩ | ⟨s, w, hs, hc⟩⟩
  · rwa [hc]
  · rw [hc]
    exact h.rewrite _ _ _
  · obtain ⟨services, stage, hw⟩ := work_eq c now t s w
    obtain ⟨seat, hseat, hnumber, rfl⟩ := exists_seat hs
    have hbegun := h.begun seat hseat
    rw [hnumber, ← List.append_nil (c.hooksOf t.seat)] at hbegun
    let served : Server := { seat.server with services := services }
    have hserved : Kept ((c.updateServer t.seat served).record t.seat []) :=
      h.update hs hbegun id
    have hsilent : (c.updateServer t.seat served).record t.seat [] =
        c.updateServer t.seat served := by
      simp [record]
    rw [hsilent] at hserved
    rw [hc, hw]
    exact hserved.rewrite _ _ _

theorem Kept.after (h : Kept c) (e : Event) : Kept (c.after e) := by
  cases e with
  | operate o => exact h.perform o
  | submit call target =>
      change Kept (c.submit call target).2
      cases hr : (c.submit call target).1 with
      | settled r => rwa [(submit_settled hr).1]
      | task n =>
          obtain ⟨id, p, seat, -, -, -, hc⟩ := submit_task hr
          rw [hc]
          exact h.rewrite _ _ _
  | run now n => exact h.run now n
  | abort n => exact h.rewrite _ _ _

theorem Kept.afterAll (h : Kept c) (es : List Event) : Kept (c.afterAll es) := by
  induction es generalizing c with
  | nil => exact h
  | cons e es ih => exact ih (h.after e)

def ask (c : Cluster) (number : Nat) (r : Server.Request) : Cluster :=
  match c.server? number with
  | none => c
  | some s =>
      match s.handle r with
      | .ok (s', runs) => (c.updateServer number s').record number runs
      | .error _ => c

inductive Deed where
  | event (e : Event)
  | ask (number : Nat) (r : Server.Request)

def undergo (c : Cluster) : Deed → Cluster
  | .event e => c.after e
  | .ask number r => c.ask number r

def undergoAll (c : Cluster) (deeds : List Deed) : Cluster := deeds.foldl undergo c

theorem Kept.ask_shutdown (h : Kept c) (hs : seat ∈ c.allSeats) :
    c.ask seat.number .shutdown = c.shutdownServer seat := by
  simp only [ask, h.server?_eq hs, Server.handle, shutdownServer]

theorem Kept.ask_start (h : Kept c) (hs : seat ∈ c.allSeats) :
    c.ask seat.number .start = (c.startServer seat).toOption.getD c := by
  simp only [ask, h.server?_eq hs, Server.handle, startServer]
  cases seat.server.start <;> rfl

theorem ask_cases (c : Cluster) (n : Nat) (r : Server.Request) :
    c.ask n r = c ∨ ∃ s s' runs, c.server? n = some s ∧ s.handle r = .ok (s', runs) ∧
      c.ask n r = (c.updateServer n s').record n runs := by
  cases hn : c.server? n with
  | none => exact Or.inl (by simp only [ask, hn])
  | some s =>
      cases hr : s.handle r with
      | error e => exact Or.inl (by simp only [ask, hn, hr])
      | ok x => exact Or.inr ⟨s, x.1, x.2, rfl, hr, by simp only [ask, hn, hr]⟩

theorem Kept.undergo (h : Kept c) (deed : Deed) : Kept (c.undergo deed) := by
  cases deed with
  | event e => exact h.after e
  | ask n r =>
      change Kept (c.ask n r)
      rcases ask_cases c n r with hc | ⟨s, s', runs, hn, hr, hc⟩
      · rwa [hc]
      · rw [hc]
        exact h.handle hn hr

theorem Kept.undergoAll (h : Kept c) (deeds : List Deed) : Kept (c.undergoAll deeds) := by
  induction deeds generalizing c with
  | nil => exact h
  | cons deed deeds ih => exact ih (h.undergo deed)

theorem Down.undergo (h : c.Down) (deed : Deed) : (c.undergo deed).Down := by
  cases deed with
  | event e => exact h.after e
  | ask n r =>
      change (c.ask n r).Down
      rcases ask_cases c n r with hc | ⟨s, s', runs, -, -, hc⟩
      · rwa [hc]
      · rw [hc]
        exact ⟨h.stopped, by simp [record, updateServer, h.empty]⟩

theorem running_undergo (h : c.running = true ∨ c.Down) (deed : Deed) :
    (c.undergo deed).running = true ∨ (c.undergo deed).Down := by
  cases deed with
  | event e => exact running_after h e
  | ask n r =>
      rcases h with hrun | hdown
      · refine Or.inl ?_
        change (c.ask n r).running = true
        rcases ask_cases c n r with hc | ⟨s, s', runs, -, -, hc⟩
        · rwa [hc]
        · rw [hc]
          exact hrun
      · exact Or.inr (hdown.undergo _)

theorem running_undergoAll (h : c.running = true ∨ c.Down) (deeds : List Deed) :
    (c.undergoAll deeds).running = true ∨ (c.undergoAll deeds).Down := by
  induction deeds generalizing c with
  | nil => exact h
  | cons deed deeds ih => exact ih (running_undergo h deed)

theorem history_run (c : Cluster) (now n : Nat) : (c.runTaskAt now n).history = c.history := by
  rcases runTaskAt_cases c now n with hc | ⟨t, -, ⟨x, -, hc⟩ | ⟨s, w, -, hc⟩⟩
  · rw [hc]
  · rw [hc]
    rfl
  · obtain ⟨services, stage, hw⟩ := work_eq c now t s w
    rw [hc, hw]
    rfl

theorem Down.history_undergo (hd : c.Down) (h : Kept c) (deed : Deed) :
    (c.undergo deed).history = c.history := by
  cases deed with
  | event e =>
      cases e with
      | operate o => exact congrArg Cluster.history (perform_down hd o)
      | submit call target =>
          exact congrArg (fun r => Cluster.history r.2) (submit_down hd call target)
      | run now n => exact history_run c now n
      | abort n => rfl
  | ask n r =>
      change (c.ask n r).history = c.history
      rcases ask_cases c n r with hc | ⟨s, s', runs, hn, hr, hc⟩
      · rw [hc]
      · obtain ⟨seat, hseat, -, rfl⟩ := exists_seat hn
        have hdeparted : seat ∈ c.departed := by
          simpa [allSeats, hd.empty, Keyed.values] using hseat
        obtain ⟨-, rfl⟩ := Server.handle_terminated (h.ended seat hdeparted) hr
        rw [hc]
        exact List.append_nil _

theorem Down.history_undergoAll (hd : c.Down) (h : Kept c) (deeds : List Deed) :
    (c.undergoAll deeds).history = c.history := by
  induction deeds generalizing c with
  | nil => rfl
  | cons deed deeds ih =>
      exact (ih (hd.undergo deed) (h.undergo deed)).trans (hd.history_undergo h deed)

theorem Down.undergoAll (hd : c.Down) (deeds : List Deed) : (c.undergoAll deeds).Down := by
  induction deeds generalizing c with
  | nil => exact hd
  | cons deed deeds ih => exact ih (hd.undergo deed)

theorem Down.enact (hd : c.Down) (os : List Operation) : os.foldl Cluster.enact c = c := by
  induction os with
  | nil => rfl
  | cons o os ih => rwa [List.foldl_cons, enact_eq, perform_down hd]

theorem departed_shutdown (h : c.running = true ∨ c.Down) (hs : seat ∈ c.allSeats) :
    ∃ left ∈ c.shutdown.departed, left.badge = seat.badge := by
  unfold shutdown
  split
  · obtain ⟨history, hfold⟩ := foldl_retire c.seats
      { c with running := false, seats := [], owners := c.owners.map fun _ => none }
    rw [hfold]
    rcases List.mem_append.1 hs with hs | hs
    · refine ⟨seat.shut, ?_, badge_shut seat⟩
      exact List.mem_append_left _ (List.mem_reverse.2 (List.mem_map_of_mem hs))
    · exact ⟨seat, List.mem_append_right _ hs, rfl⟩
  · next hrun =>
      have hdown := h.resolve_left hrun
      exact ⟨seat, by simpa [allSeats, hdown.empty, Keyed.values] using hs, rfl⟩

structure Ended (c d : Cluster) : Prop where
  down : d.Down
  former : ∀ seat ∈ c.allSeats, ∃ left ∈ d.departed, left.badge = seat.badge
  stopped : ∀ deeds, ∀ left ∈ (d.undergoAll deeds).departed, left.server.status = .terminated ∧
    ((d.undergoAll deeds).hooksOf left.number).countP (·.hook = .stop) = 1
  untouched : ∀ deeds (os : List Operation),
    os.foldl enact (d.undergoAll deeds) = d.undergoAll deeds
  silent : ∀ deeds, (d.undergoAll deeds).history = d.history

theorem Kept.shut_down (h : Kept c) (hrun : c.running = true ∨ c.Down) :
    Ended c (c.enact .shutdown) := by
  rw [enact_eq]
  have hdown : (c.perform .shutdown).Down := Down.reached hrun
  have hkept : Kept (c.perform .shutdown) := h.perform .shutdown
  refine ⟨hdown, fun seat hs => departed_shutdown hrun hs, ?_, ?_, hdown.history_undergoAll hkept⟩
  · intro deeds left hleft
    have hlater := hkept.undergoAll deeds
    have hterminated := hlater.ended left hleft
    have hbegun := hlater.begun left (List.mem_append_right _ hleft)
    exact ⟨hterminated, (hterminated ▸ hbegun).stopped_once⟩
  · intro deeds os
    exact (hdown.undergoAll deeds).enact os

/-- In every state that a cluster can come to, an operation that fails has changed nothing, a slice
that has not been let in has been told nothing, and a shutdown is for good. -/
theorem operations_atomic {config : ClusterConfig} (hnew : create config = .ok c)
    (deeds : List Deed) :
    let d := c.undergoAll deeds
    (∀ o e d', procedure o d = .error e d' ↔ d.Refuses o e ∧ d' = d) ∧
      d.hooksOf d.joined = [] ∧ Ended d (d.enact .shutdown) := by
  intro d
  obtain ⟨rfl, -⟩ := create_eq hnew
  have hkept : Kept d := (kept_new config).undergoAll deeds
  have hrun : d.running = true ∨ d.Down := running_undergoAll (Or.inl rfl) deeds
  exact ⟨fun _ _ _ => procedure_error, hkept.silent _ (Nat.le_refl _), hkept.shut_down hrun⟩

def decline : List Deed :=
  [.event (.operate (.add ⟨"a", "x", false⟩ [])), .event (.operate (.add ⟨"b", "y", false⟩ [])),
    .event (.operate .rebalance), .ask 0 .shutdown, .event (.operate (.remove "b"))]

theorem operations_atomic_in_decline :
    let d := (new ⟨2, "s"⟩).undergoAll decline
    let later := (d.enact .shutdown).undergoAll [.ask 0 .start]
    procedure (.add ⟨"a", "z", false⟩ []) d = .error (.duplicateMember "a") d ∧
      (∀ left ∈ later.departed, (later.hooksOf left.number).countP (·.hook = .stop) = 1) ∧
      [.add ⟨"c", "z", false⟩ [], .remove "a"].foldl enact later = later := by
  intro d later
  have hnew : create ⟨2, "s"⟩ = .ok (new ⟨2, "s"⟩) := rfl
  have hrun : d.running = true := by decide +kernel
  have hlisted : Keyed.contains "a" d.seats = true := by decide +kernel
  obtain ⟨hfails, -, hended⟩ := operations_atomic hnew decline
  refine ⟨?_, fun left hleft => (hended.stopped _ left hleft).2, hended.untouched _ _⟩
  exact (hfails _ _ _).2 ⟨.duplicate _ _ hrun hlisted, rfl⟩

end Cluster

end Switchboard
