import Switchboard.Proofs.Cluster.Placement
import Switchboard.Proofs.Cluster.Progress

namespace Switchboard.Cluster

variable {c c' : Cluster} {e : Event} {n : Nat} {t : Task} {seat : Seat} {id : MemberId}

def disturbs (c : Cluster) : Event → Bool
  | .operate (.add _ _) => false
  | .operate o => decide ((c.perform o).owners ≠ c.owners ∨ (c.perform o).members ≠ c.members)
  | _ => false

theorem addMember_keeps {m : Member} {services : List (String × Service)}
    (h : c.addMember m services = .ok c') :
    c'.owners = c.owners ∧ ∀ x ∈ c.roster, x ∈ c'.roster := by
  unfold addMember at h
  split at h
  · cases h
  split at h
  · cases h
  next hm =>
  have hfree : Keyed.find? m.id c.seats = none := by
    simpa [Keyed.contains, Option.isSome_iff_ne_none] using hm
  cases h
  refine ⟨rfl, ?_⟩
  intro x hx
  have hp := (Keyed.insert_perm
    (⟨c.joined, { Server.new c.config.slice m services with status := .running }⟩ : Seat)
    hfree).map fun e => (e.1, e.2.badge)
  exact hp.mem_iff.2 (List.mem_cons_of_mem _ hx)

theorem length_members_removeMember {r : Member × Cluster} (hs : Keyed.Sorted c.seats)
    (h : c.removeMember id = .ok r) : r.2.members.length + 1 = c.members.length := by
  unfold removeMember at h
  split at h
  · cases h
  next seat hfound =>
  cases h
  have herase : Keyed.Sorted (Keyed.erase id c.seats) := Keyed.sorted_erase id hs
  rw [members_of_roster ((rewriting_assignUnowned _).roster herase), members, members,
    List.length_map, List.length_map, Keyed.values, Keyed.values, List.length_map, List.length_map]
  exact (Keyed.erase_perm hfound).length_eq

theorem roster_shutdown (h : c.shutdown.members = c.members) : c.shutdown.roster = c.roster := by
  unfold shutdown at h ⊢
  split
  next hrun =>
    rw [if_pos hrun] at h
    obtain ⟨history, hfold⟩ := foldl_retire c.seats
      { c with running := false, seats := [], owners := c.owners.map fun _ => none }
    rw [hfold] at h ⊢
    have hnone : c.seats = [] := List.map_eq_nil_iff.1 (List.map_eq_nil_iff.1 h.symm)
    have hroster : c.roster = [] := by rw [roster, hnone, List.map_nil]
    rw [hroster]
    rfl
  next => rfl

theorem perform_keeps {o : Operation} (hs : Keyed.Sorted c.seats)
    (he : c.disturbs (.operate o) = false) :
    (c.perform o).owners = c.owners ∧ ∀ x ∈ c.roster, x ∈ (c.perform o).roster := by
  have hstill (hadd : ∀ m services, o ≠ .add m services) :
      (c.perform o).owners = c.owners ∧ (c.perform o).members = c.members := by
    cases o with
    | add m services => exact absurd rfl (hadd m services)
    | _ => simpa [disturbs] using he
  cases o with
  | add m services =>
      unfold perform
      split
      next c' h => exact addMember_keeps h
      next => exact ⟨rfl, fun _ hx => hx⟩
  | remove id =>
      obtain ⟨-, hmembers⟩ := hstill (by simp)
      unfold perform at hmembers ⊢
      split at hmembers
      next c' h =>
        obtain ⟨r, hr, rfl⟩ := attempt_remove h
        have hlength := length_members_removeMember hs hr
        rw [hmembers] at hlength
        omega
      next => exact ⟨rfl, fun _ hx => hx⟩
  | move p id =>
      obtain ⟨howners, -⟩ := hstill (by simp)
      refine ⟨howners, fun x hx => ?_⟩
      unfold perform
      split
      next c' h => exact (rewriting_movePartition h).roster hs ▸ hx
      next => exact hx
  | rebalance =>
      obtain ⟨howners, -⟩ := hstill (by simp)
      refine ⟨howners, fun x hx => ?_⟩
      exact ((rewriting_rebalance c).roster hs).symm ▸ hx
  | shutdown =>
      obtain ⟨howners, hmembers⟩ := hstill (by simp)
      exact ⟨howners, fun x hx => (roster_shutdown hmembers).symm ▸ hx⟩

theorem roster_of_bareSeats (h : c'.bareSeats = c.bareSeats) : c'.roster = c.roster := by
  have hmap := congrArg (List.map fun e : MemberId × Seat => (e.1, e.2.badge)) h
  simp only [bareSeats, List.map_map] at hmap
  exact hmap

theorem runTaskAt_keeps (h : Sound c) (now n : Nat) :
    (c.runTaskAt now n).owners = c.owners ∧ (c.runTaskAt now n).roster = c.roster := by
  rcases runTaskAt_cases c now n with hc | ⟨t, -, ⟨e, -, hc⟩ | ⟨s, w, hs, hc⟩⟩
  · rw [hc]
    exact ⟨rfl, rfl⟩
  · rw [hc]
    exact ⟨rfl, rfl⟩
  · obtain ⟨services, stage, hw⟩ := work_eq c now t s w
    rw [hc, hw]
    exact ⟨rfl, roster_of_bareSeats (bareSeats_updateServer h hs services)⟩

theorem submit_keeps (c : Cluster) (call : Call) (target : Option Member) :
    (c.submit call target).2.owners = c.owners ∧ (c.submit call target).2.roster = c.roster := by
  cases hr : (c.submit call target).1 with
  | settled r =>
      rw [(submit_settled hr).1]
      exact ⟨rfl, rfl⟩
  | task n =>
      obtain ⟨id, p, seat, -, -, -, hc⟩ := submit_task hr
      rw [hc]
      exact ⟨rfl, rfl⟩

theorem undisturbed (h : Sound c) (he : c.disturbs e = false) :
    (c.after e).owners = c.owners ∧ ∀ x ∈ c.roster, x ∈ (c.after e).roster := by
  cases e with
  | operate o => exact perform_keeps h.coherent.sorted he
  | submit call target =>
      obtain ⟨howners, hroster⟩ := submit_keeps c call target
      exact ⟨howners, fun x hx => hroster.symm ▸ hx⟩
  | run now n =>
      obtain ⟨howners, hroster⟩ := runTaskAt_keeps h now n
      exact ⟨howners, fun x hx => hroster.symm ▸ hx⟩
  | abort n => exact ⟨rfl, fun _ hx => hx⟩

def Upholds (c : Cluster) (t : Task) : Prop :=
  ∃ id m, (id, t.seat, m) ∈ c.roster ∧ ∀ p, t.partition = some p → c.ownerId? p = some id

theorem Upholds.after (hu : c.Upholds t) (h : Sound c) (he : c.disturbs e = false) :
    (c.after e).Upholds t := by
  obtain ⟨howners, hroster⟩ := undisturbed h he
  obtain ⟨id, m, hm, howned⟩ := hu
  refine ⟨id, m, hroster _ hm, fun p hp => ?_⟩
  rw [ownerId?, howners]
  exact howned p hp

theorem Upholds.accept {s : Server} {name : String} {x : CallFailure} (hu : c.Upholds t)
    (h : Sound c) (hs : c.server? t.seat = some s)
    (ha : s.accept t.partition name = .error x) : x.isStale = false := by
  obtain ⟨id, m, hm, howned⟩ := hu
  obtain ⟨⟨id', seat⟩, hseat, hbadge⟩ := List.mem_map.1 hm
  obtain ⟨rfl, hnumber, -⟩ : id' = id ∧ seat.number = t.seat ∧ seat.server.member = m := by
    simpa [Seat.badge] using hbadge
  have hserver : s = seat.server := by
    have hall : seat ∈ c.allSeats := List.mem_append_left _ (List.mem_map_of_mem hseat)
    exact (h.server_eq hs hall hnumber).symm
  have hrun : s.isRunning = true := by
    rw [hserver]
    simp [Server.isRunning, (h.coherent.serves hseat).running]
  have howns : t.partition.filter (!s.owns ·) = none := by
    cases hp : t.partition with
    | none => rfl
    | some p =>
        have hmem := (h.coherent.mem_partitions hseat).2 (howned p hp)
        simp [Option.filter, Server.owns, hserver, hmem]
  unfold Server.accept at ha
  rw [howns] at ha
  simp only [hrun, Bool.not_true, Bool.false_eq_true, if_false] at ha
  split at ha
  · cases ha
  · cases ha
    rfl

def Firm (c : Cluster) (n : Nat) : Prop :=
  ∃ t, c.tasks[n]? = some t ∧ (t.stage = .queued → c.Upholds t) ∧
    ∀ x, t.stage.result? n = some (.error x) → x.isStale = false

theorem task_after (e : Event) (ht : c.tasks[n]? = some t) :
    ∃ t', (c.after e).tasks[n]? = some t' ∧ t'.seat = t.seat ∧ t'.partition = t.partition := by
  obtain ⟨rest, hrest⟩ := tickets_afterAll c [e]
  have hticket : c.tickets[n]? = some t.ticket := by rw [tickets, List.getElem?_map, ht]; rfl
  have hlater : (c.after e).tickets[n]? = some t.ticket := by
    change (c.afterAll [e]).tickets[n]? = _
    rw [← hrest, List.getElem?_append_left (List.getElem?_eq_some_iff.1 hticket).1, hticket]
  rw [tickets, List.getElem?_map] at hlater
  obtain ⟨t', ht', hsame⟩ := Option.map_eq_some_iff.1 hlater
  obtain ⟨hseat, hpartition⟩ : t'.ticket.seat = t.seat ∧ t'.ticket.partition = t.partition := by
    rw [hsame]
    exact ⟨rfl, rfl⟩
  exact ⟨t', ht', hseat, hpartition⟩

theorem report_not_stale {s : Server} {r : Except Fault Json} {x : CallFailure}
    (h : s.report n r = .error x) : x.isStale = false := by
  cases r with
  | ok v => cases h
  | error e =>
      cases e <;>
        · cases h
          rfl

theorem Firm.after (hf : c.Firm n) (h : Sound c) (he : c.disturbs e = false) :
    (c.after e).Firm n := by
  obtain ⟨t, ht, hqueued, hsettled⟩ := hf
  obtain ⟨t', ht', hseat, hpartition⟩ := task_after e ht
  have hs : c.stage? n = some t.stage := by rw [stage?, ht, Option.map_some]
  have hs' : (c.after e).stage? n = some t'.stage := by rw [stage?, ht', Option.map_some]
  have hp := progress_after h e n
  rw [hs, hs'] at hp
  have hkept : t.stage = .queued → (c.after e).Upholds t' := by
    intro hq
    obtain ⟨id, m, hm, howned⟩ := (hqueued hq).after h he
    exact ⟨id, m, hseat ▸ hm, hpartition ▸ howned⟩
  have hrefused (x : CallFailure) (hq : t.stage = .queued) (hx : t'.stage = .refused x) :
      x.isStale = false := by
    obtain ⟨now, u, s, -, hu, hserver, ha⟩ := refused_after h (hq ▸ hs) (hx ▸ hs')
    obtain rfl : t = u := Option.some.inj (ht.symm.trans hu)
    exact (hqueued hq).accept h hserver ha
  refine ⟨t', ht', ?_⟩
  generalize (c.signals e).filter (·.concerns n) = seen at hp
  generalize t.stage = stage at *
  generalize t'.stage = stage' at *
  cases hp with
  | still => exact ⟨hkept, hsettled⟩
  | refuse y =>
      refine ⟨by simp, fun x hx => ?_⟩
      cases hx
      exact hrefused y rfl rfl
  | answer s r => exact ⟨by simp, fun x hx => report_not_stale (Option.some.inj hx)⟩
  | finish wake rest s r => exact ⟨by simp, fun x hx => report_not_stale (Option.some.inj hx)⟩
  | drop =>
      refine ⟨by simp, fun x hx => ?_⟩
      cases hx
      rfl
  | cut wake rest =>
      refine ⟨by simp, fun x hx => ?_⟩
      cases hx
      rfl
  | _ => exact ⟨by simp, fun x hx => by cases hx⟩

theorem route_cases {call : Call} {target : Option Member} {p : Option PartitionId}
    (h : c.route call target = .ok (id, p)) :
    (∃ m, target = some m ∧ id = m.id ∧ p = none) ∨
      ∃ k, target = none ∧ p = some (c.partitionFor k) ∧
        c.ownerId? (c.partitionFor k) = some id := by
  cases target with
  | some m =>
      obtain ⟨rfl, rfl⟩ := route_target c call h
      exact Or.inl ⟨m, rfl, rfl, rfl⟩
  | none =>
      cases hk : call.key with
      | none =>
          unfold route at h
          split at h
          · cases h
          · simp [hk] at h
      | some k =>
          obtain ⟨rfl, howner⟩ := route_key c hk h
          exact Or.inr ⟨k, rfl, rfl, howner⟩

theorem mem_roster (h : Keyed.find? id c.seats = some seat) :
    (id, seat.number, seat.server.member) ∈ c.roster :=
  List.mem_map_of_mem (f := fun e : MemberId × Seat => (e.1, e.2.badge)) (Keyed.mem_of_find? h)

theorem firm_submit {call : Call} {target : Option Member}
    (h : (c.submit call target).1 = .task n) : (c.submit call target).2.Firm n := by
  obtain ⟨id, p, seat, hroute, hs, rfl, hc⟩ := submit_task h
  rw [hc]
  refine ⟨⟨c.tasks.length, seat.number, call, p, .queued⟩, by simp, ?_, fun x hx => by cases hx⟩
  intro _
  refine ⟨id, seat.server.member, mem_roster hs, ?_⟩
  rintro q rfl
  rcases route_cases hroute with ⟨m, -, -, hq⟩ | ⟨k, -, hq, howner⟩
  · cases hq
  · cases hq
    exact howner

theorem Sound.find?_alive (h : Sound c) {m : Member} (hm : m ∈ c.alive) :
    ∃ seat, Keyed.find? m.id c.seats = some seat := by
  obtain ⟨seat, hseat, rfl⟩ := List.mem_map.1 hm
  obtain ⟨⟨id, seat⟩, he, rfl⟩ := List.mem_map.1 (List.mem_filter.1 hseat).1
  obtain rfl : seat.server.member.id = id := (h.coherent.serves he).member
  exact ⟨seat, Keyed.find?_of_mem h.coherent.sorted he⟩

theorem submit_not_stale (h : Sound c) {call : Call} {target : Option Member} {x : CallFailure}
    (halive : ∀ m, target = some m → m ∈ c.alive)
    (hr : (c.submit call target).1 = .settled (.error x)) : x.isStale = false := by
  unfold submit at hr
  split at hr
  · cases hr
    rfl
  next id p hroute =>
  have hfound : ∃ seat, Keyed.find? id c.seats = some seat := by
    rcases route_cases hroute with ⟨m, rfl, rfl, -⟩ | ⟨k, -, -, howner⟩
    · exact h.find?_alive (halive m rfl)
    · have hmem := List.mem_of_getElem? (Option.join_eq_some_iff.1 howner)
      obtain ⟨seat, hseat, -⟩ := (mem_dataIds h.coherent.sorted).1 (h.coherent.eligible id hmem)
      exact ⟨seat, hseat⟩
  obtain ⟨seat, hseat⟩ := hfound
  simp only [hseat] at hr
  split at hr
  · cases hr
    rfl
  · cases hr

end Switchboard.Cluster
