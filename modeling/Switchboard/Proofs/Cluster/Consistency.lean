import Mathlib.Data.List.Sort
import Switchboard.Proofs.Cluster.Operation

namespace Switchboard.Cluster

variable {c c' : Cluster} {id : MemberId} {seat : Seat} {p : PartitionId}

structure Coherent (c : Cluster) : Prop where
  positive : 0 < c.config.partitionCount
  length : c.owners.length = c.config.partitionCount
  sorted : Keyed.Sorted c.seats
  agrees : Agrees c.owners c.seats
  eligible : ∀ id, some id ∈ c.owners → id ∈ c.dataIds

theorem mem_dataIds (h : Keyed.Sorted c.seats) :
    id ∈ c.dataIds ↔
      ∃ seat, Keyed.find? id c.seats = some seat ∧ seat.server.member.lite = false := by
  simp [dataIds, Keyed.mem_iff_find? h]

theorem find?_of_mem_dataIds (h : Keyed.Sorted c.seats) (hid : id ∈ c.dataIds) :
    ∃ seat, Keyed.find? id c.seats = some seat := by
  obtain ⟨seat, hs, -⟩ := (mem_dataIds h).1 hid
  exact ⟨seat, hs⟩

theorem create_eq {config : ClusterConfig} (h : create config = .ok c) :
    c = new config ∧ 0 < config.partitionCount := by
  unfold create at h
  split at h
  · cases h
  next hv =>
  cases h
  refine ⟨rfl, Nat.pos_of_ne_zero ?_⟩
  intro h0
  simp [ClusterConfig.invalid?, h0] at hv

structure Allotted (c : Cluster) : Prop where
  length : c.owners.length = c.config.partitionCount
  sorted : Keyed.Sorted c.seats
  eligible : ∀ id, some id ∈ c.owners → id ∈ c.dataIds

theorem Coherent.allotted (h : Coherent c) : Allotted c := ⟨h.length, h.sorted, h.eligible⟩

theorem allotted_new (config : ClusterConfig) : Allotted (new config) where
  length := List.length_replicate
  sorted := Keyed.sorted_nil
  eligible _ hm := by simp [new, List.mem_replicate] at hm

theorem allotted_seating {s : Server} (h : Allotted c)
    (hfree : Keyed.find? s.member.id c.seats = none) : Allotted (c.seating s) := by
  have hsorted : Keyed.Sorted (c.seating s).seats := Keyed.sorted_insert h.sorted
  refine ⟨h.length, hsorted, fun id ho => ?_⟩
  obtain ⟨seat, hs, hl⟩ := (mem_dataIds h.sorted).1 (h.eligible id ho)
  have hid : id ≠ s.member.id := by
    rintro rfl
    simp [hfree] at hs
  refine (mem_dataIds hsorted).2 ⟨seat, ?_, hl⟩
  rw [seating, Keyed.find?_insert_of_ne hid]
  exact hs

theorem allotted_without (h : Allotted c) (id : MemberId) (seat : Seat) :
    Allotted (c.without id seat) := by
  have hsorted : Keyed.Sorted (c.without id seat).seats := Keyed.sorted_erase id h.sorted
  refine ⟨by simpa [without] using h.length, hsorted, fun other ho => ?_⟩
  obtain ⟨o, hm, ho⟩ := List.mem_map.1 ho
  split at ho
  · cases ho
  next hne =>
  subst ho
  obtain ⟨s, hs, hl⟩ := (mem_dataIds h.sorted).1 (h.eligible other hm)
  refine (mem_dataIds hsorted).2 ⟨s, ?_, hl⟩
  rw [without, Keyed.find?_erase_of_ne (by simpa using hne)]
  exact hs

theorem dataIds_announce (h : Keyed.Sorted c.seats) (m : Move) :
    (c.announce m).dataIds = c.dataIds :=
  dataIds_of_roster (roster_announce h m)

theorem dataIds_announceAll (h : Keyed.Sorted c.seats) (ms : List Move) :
    (c.announceAll ms).dataIds = c.dataIds :=
  dataIds_of_roster (roster_announceAll h ms)

theorem allotted_rewrite {t : Table} {ms : List Move} (h : Allotted c)
    (hw : Rewrites c.owners ms t) (hd : ∀ m ∈ ms, m.destination ∈ c.dataIds) :
    Allotted ({ c with owners := t }.announceAll ms) := by
  have hsorted : Keyed.Sorted ({ c with owners := t } : Cluster).seats := h.sorted
  refine ⟨?_, sorted_announceAll hsorted ms, fun id ho => ?_⟩
  · simpa [hw.length_eq] using h.length
  · rw [dataIds_announceAll hsorted]
    rw [owners_announceAll] at ho
    rcases hw.mem ho with ho | ⟨m, hm, rfl⟩
    · exact h.eligible id ho
    · exact hd m hm

theorem allotted_closed (h : Allotted c) : Allotted c.closed where
  length := by simpa [closed] using h.length
  sorted := Keyed.sorted_nil
  eligible _ ho := by simp [closed] at ho

theorem Allotted.change (hc : Change c c') (h : Allotted c) : Allotted c' := by
  cases hc with
  | hooks n runs => exact ⟨h.length, h.sorted, h.eligible⟩
  | seat s hfree _ _ => exact allotted_seating h hfree
  | leave id seat _ => exact allotted_without h id seat
  | rewrite t ms hw hd => exact allotted_rewrite h hw hd
  | close history =>
      have hclosed := allotted_closed h
      exact ⟨hclosed.length, hclosed.sorted, hclosed.eligible⟩

theorem coherent_new {config : ClusterConfig} (h : 0 < config.partitionCount) :
    Coherent (new config) :=
  have hallotted := allotted_new config
  ⟨h, hallotted.length, hallotted.sorted, fun _ _ hs => by simp [new, Keyed.find?] at hs,
    hallotted.eligible⟩

theorem coherent_seating {s : Server} (h : Coherent c)
    (hfree : Keyed.find? s.member.id c.seats = none) (hrun : s.status = .running)
    (hnone : s.partitions = []) : Coherent (c.seating s) := by
  have hunowned (p : PartitionId) : c.owners[p]? ≠ some (some s.member.id) := by
    intro hp
    obtain ⟨seat, hs, -⟩ := (mem_dataIds h.sorted).1 (h.eligible _ (List.mem_of_getElem? hp))
    simp [hfree] at hs
  have hallotted := allotted_seating h.allotted hfree
  refine ⟨h.positive, hallotted.length, hallotted.sorted, fun id seat hs => ?_, hallotted.eligible⟩
  by_cases hid : id = s.member.id
  · subst hid
    rw [seating, Keyed.find?_insert_self] at hs
    cases hs
    exact ⟨rfl, hrun, by simp [hnone], fun p => by simp [hnone, seating, hunowned p]⟩
  · rw [seating, Keyed.find?_insert_of_ne hid] at hs
    exact h.agrees id seat hs

theorem coherent_without (h : Coherent c) (id : MemberId) (seat : Seat) :
    Coherent (c.without id seat) := by
  have hallotted := allotted_without h.allotted id seat
  refine ⟨h.positive, hallotted.length, hallotted.sorted, fun other s hs => ?_, hallotted.eligible⟩
  have hne : other ≠ id := by
    rintro rfl
    simp [without, Keyed.find?_erase_self h.sorted] at hs
  have old : Serves c.owners other s.server := by
    refine h.agrees other s ?_
    rwa [← Keyed.find?_erase_of_ne hne]
  refine ⟨old.member, old.running, old.ordered, fun p => ?_⟩
  rw [old.owned]
  simp only [without, List.getElem?_map, Option.map_eq_some_iff]
  constructor
  · intro hp
    exact ⟨some other, hp, by simp [hne]⟩
  · rintro ⟨o, hp, ho⟩
    split at ho
    · cases ho
    · rwa [← ho]

theorem coherent_rewrite {t : Table} {ms : List Move} (h : Coherent c)
    (hw : Rewrites c.owners ms t) (hd : ∀ m ∈ ms, m.destination ∈ c.dataIds) :
    Coherent ({ c with owners := t }.announceAll ms) := by
  have hallotted := allotted_rewrite h.allotted hw hd
  refine ⟨?_, hallotted.length, hallotted.sorted, ?_, hallotted.eligible⟩
  · simpa using h.positive
  · rw [owners_announceAll]
    exact agrees_announceAll h.agrees hw

theorem coherent_closed (h : Coherent c) : Coherent c.closed :=
  have hallotted := allotted_closed h.allotted
  ⟨h.positive, hallotted.length, hallotted.sorted,
    fun _ _ hs => by simp [closed, Keyed.find?] at hs, hallotted.eligible⟩

theorem Coherent.change (hc : Change c c') (h : Coherent c) : Coherent c' := by
  cases hc with
  | hooks n runs => exact ⟨h.positive, h.length, h.sorted, h.agrees, h.eligible⟩
  | seat s hfree hrun hnone => exact coherent_seating h hfree hrun hnone
  | leave id seat hs => exact coherent_without h id seat
  | rewrite t ms hw hd => exact coherent_rewrite h hw hd
  | close history =>
      have hclosed := coherent_closed h
      exact ⟨hclosed.positive, hclosed.length, hclosed.sorted, hclosed.agrees, hclosed.eligible⟩

theorem config_change (hc : Change c c') : c'.config = c.config := by
  cases hc with
  | rewrite t ms hw hd => exact config_announceAll ..
  | _ => rfl

theorem config_changes (hc : Changes c c') : c'.config = c.config :=
  invariant_of_steps (P := fun d => d.config = c.config) hc
    (fun hstep h => (config_change hstep).trans h) rfl

theorem coherent_performAll (h : Coherent c) (os : List Operation) :
    Coherent (c.performAll os) :=
  invariant_of_steps (changes_performAll c os) Coherent.change h

structure Consistent (config : ClusterConfig) (c : Cluster) : Prop where
  count : 1 ≤ config.partitionCount ∧ c.owners.length = config.partitionCount
  owned : ∀ p id, c.ownerId? p = some id →
    ∃ m, c.owner? p = some m ∧ m ∈ c.members ∧ m.id = id ∧ m.lite = false
  serving : ∀ id seat, (id, seat) ∈ c.seats →
    seat.server.member.id = id ∧ seat.server.status = .running ∧
      seat.server.partitions =
        (List.range config.partitionCount).filter fun p => c.ownerId? p = some id
  lite : ∀ id seat, (id, seat) ∈ c.seats → seat.server.member.lite = true →
    seat.server.partitions = []
  exclusive : ∀ a b, a ∈ c.seats → b ∈ c.seats → a.1 ≠ b.1 →
    List.Disjoint a.2.server.partitions b.2.server.partitions
  inRange : ∀ k, c.partitionFor k < c.owners.length
  alive : c.alive = c.members ∧ (c.members.map (·.id)).Pairwise (· < ·)

theorem ownerId?_eq_some : c.ownerId? p = some id ↔ c.owners[p]? = some (some id) := by
  simp [ownerId?, Option.join_eq_some_iff]

theorem ownerId?_lt (h : c.ownerId? p = some id) : p < c.owners.length :=
  (List.getElem?_eq_some_iff.1 (ownerId?_eq_some.1 h)).1

theorem Allotted.owner_seat (h : Allotted c) (ho : c.ownerId? p = some id) :
    ∃ seat, (id, seat) ∈ c.seats ∧ c.owner? p = some seat.server.member ∧
      seat.server.member.lite = false := by
  have hm := h.eligible id (List.mem_of_getElem? (ownerId?_eq_some.1 ho))
  obtain ⟨seat, hs, hl⟩ := (mem_dataIds h.sorted).1 hm
  refine ⟨seat, Keyed.mem_of_find? hs, ?_, hl⟩
  simp [owner?, ho, hs]

theorem mem_members (h : (id, seat) ∈ c.seats) : seat.server.member ∈ c.members := by
  simp only [members, Keyed.values, List.map_map, List.mem_map]
  exact ⟨_, h, rfl⟩

namespace Coherent

theorem serves (h : Coherent c) (hm : (id, seat) ∈ c.seats) : Serves c.owners id seat.server :=
  h.agrees id seat (Keyed.find?_of_mem h.sorted hm)

theorem mem_partitions (h : Coherent c) (hm : (id, seat) ∈ c.seats) :
    p ∈ seat.server.partitions ↔ c.ownerId? p = some id := by
  rw [ownerId?_eq_some]
  exact (h.serves hm).owned p

theorem partitions_eq (h : Coherent c) (hm : (id, seat) ∈ c.seats) :
    seat.server.partitions =
      (List.range c.config.partitionCount).filter fun p => c.ownerId? p = some id := by
  refine (h.serves hm).ordered.eq_of_mem_iff (List.pairwise_lt_range.filter _) fun p => ?_
  rw [h.mem_partitions hm, List.mem_filter, List.mem_range, decide_eq_true_iff, ← h.length]
  exact ⟨fun ho => ⟨ownerId?_lt ho, ho⟩, And.right⟩

theorem owner_seat (h : Coherent c) (ho : c.ownerId? p = some id) :
    ∃ seat, (id, seat) ∈ c.seats ∧ c.owner? p = some seat.server.member ∧
      seat.server.member.lite = false := h.allotted.owner_seat ho

theorem seat_unique (h : Coherent c) {s : Seat} (hm : (id, seat) ∈ c.seats)
    (hs : (id, s) ∈ c.seats) : s = seat := by
  have hfind := Keyed.find?_of_mem h.sorted hs
  rw [Keyed.find?_of_mem h.sorted hm] at hfind
  exact (Option.some.inj hfind).symm

theorem lite_partitions (h : Coherent c) (hm : (id, seat) ∈ c.seats)
    (hl : seat.server.member.lite = true) : seat.server.partitions = [] := by
  refine List.eq_nil_iff_forall_not_mem.2 fun p hp => ?_
  obtain ⟨s, hs, -, hd⟩ := h.owner_seat ((h.mem_partitions hm).1 hp)
  rw [h.seat_unique hm hs, hl] at hd
  cases hd

theorem partitionFor_lt (h : Coherent c) (k : PartitionKey) :
    c.partitionFor k < c.owners.length := by
  have hk := k.partition_lt c.config.partitionCount
  rw [Nat.max_eq_left h.positive] at hk
  rw [h.length]
  exact hk

theorem ids_members (h : Coherent c) : c.members.map (·.id) = Keyed.names c.seats := by
  simp only [members, Keyed.values, Keyed.names, List.map_map]
  exact List.map_congr_left fun e he => (h.serves he).member

theorem alive_eq (h : Coherent c) : c.alive = c.members := by
  have hall : ∀ s ∈ Keyed.values c.seats, s.server.isRunning = true := by
    intro s hs
    obtain ⟨e, he, rfl⟩ := List.mem_map.1 hs
    simp [Server.isRunning, (h.serves he).running]
  rw [alive, List.filter_eq_self.2 hall]
  rfl

theorem consistent (h : Coherent c) : Consistent c.config c where
  count := ⟨h.positive, h.length⟩
  owned p id ho := by
    obtain ⟨seat, hs, hm, hl⟩ := h.owner_seat ho
    exact ⟨_, hm, mem_members hs, (h.serves hs).member, hl⟩
  serving id seat hm := ⟨(h.serves hm).member, (h.serves hm).running, h.partitions_eq hm⟩
  lite id seat hm hl := h.lite_partitions hm hl
  exclusive a b ha hb hne p hpa hpb := by
    have hoa := (h.mem_partitions ha).1 hpa
    have hob := (h.mem_partitions hb).1 hpb
    rw [hoa] at hob
    exact hne (Option.some.inj hob)
  inRange := h.partitionFor_lt
  alive := by
    refine ⟨h.alive_eq, ?_⟩
    rw [h.ids_members, Keyed.names, List.pairwise_map]
    exact h.sorted

end Coherent

theorem consistent_performAll {config : ClusterConfig} (h : create config = .ok c)
    (os : List Operation) : Consistent config (c.performAll os) := by
  obtain ⟨rfl, hpos⟩ := create_eq h
  have hconfig : ((new config).performAll os).config = config :=
    config_changes (changes_performAll _ os)
  have hconsistent := (coherent_performAll (coherent_new hpos) os).consistent
  rwa [hconfig] at hconsistent

theorem consistent_after_rejoining :
    create ⟨3, "s"⟩ = .ok (new ⟨3, "s"⟩) ∧
      Consistent ⟨3, "s"⟩ ((new ⟨3, "s"⟩).performAll
        [.add ⟨"a", "x", false⟩ [], .add ⟨"b", "y", true⟩ [], .move 1 "a", .remove "a",
          .add ⟨"a", "x", false⟩ [], .rebalance]) :=
  ⟨rfl, consistent_performAll rfl _⟩

end Switchboard.Cluster
