import Switchboard.Proofs.Cluster.Disturbance
import Switchboard.Proofs.Cluster.Handover
import Switchboard.Proofs.Cluster.Load

namespace Switchboard.Cluster

variable {c c' : Cluster} {p k : Nat}

theorem dataMembers_members (c : Cluster) :
    dataMembers c.members =
      (c.seats.filter (!·.2.server.member.lite)).map (·.2.server.member) := by
  simp [dataMembers, members, Keyed.values, List.filter_map, Function.comp_def]

theorem Coherent.ids_dataMembers (h : Coherent c) :
    (dataMembers c.members).map (·.id) = c.dataIds := by
  rw [dataMembers_members, List.map_map, dataIds]
  refine List.map_congr_left fun e he => ?_
  exact (h.serves (List.mem_of_mem_filter he)).member

theorem Coherent.dataIds_sorted (h : Coherent c) : c.dataIds.Pairwise (· < ·) :=
  List.pairwise_map.2 (h.sorted.filter _)

theorem Coherent.owner?_eq (h : Coherent c) (ho : c.ownerId? p = c.dataIds[k]?) :
    c.owner? p = (dataMembers c.members)[k]? := by
  rw [dataIds, List.getElem?_map] at ho
  rw [dataMembers_members, List.getElem?_map]
  cases hk : (c.seats.filter (!·.2.server.member.lite))[k]? with
  | none => simp [owner?, ho, hk]
  | some e =>
      have hmem : e ∈ c.seats := List.mem_of_mem_filter (List.mem_of_getElem? hk)
      simp [owner?, ho, hk, Keyed.find?_of_mem h.sorted hmem]

theorem Coherent.dataIds_congr (h : Coherent c) (h' : Coherent c')
    (hm : ∀ m, m ∈ c'.members ↔ m ∈ c.members) : c'.dataIds = c.dataIds := by
  refine h'.dataIds_sorted.eq_of_mem_iff h.dataIds_sorted fun id => ?_
  rw [← h.ids_dataMembers, ← h'.ids_dataMembers]
  simp [mem_dataMembers, hm]

theorem Coherent.unowned (h : Coherent c) (hnone : c.dataIds = []) (p : PartitionId) :
    c.ownerId? p = none := by
  refine Option.eq_none_iff_forall_ne_some.2 fun id ho => ?_
  have hmem := h.eligible id (List.mem_of_getElem? (ownerId?_eq_some.1 ho))
  rw [hnone] at hmem
  exact absurd hmem List.not_mem_nil

theorem Coherent.owners_rebalance (h : Coherent c) :
    c.rebalance.owners =
      (deal c.dataIds 0 0 (List.replicate c.config.partitionCount none)).1 := by
  refine List.ext_getElem? fun p => ?_
  rw [rebalance, owners_announceAll, List.getElem?_mapIdx, getElem?_deal, List.getElem?_replicate,
    List.take_replicate, List.count_replicate_self, Nat.zero_add]
  split
  · next hp =>
      have hlt : p < c.owners.length := h.length ▸ hp
      rw [List.getElem?_eq_getElem hlt, Nat.min_eq_left hp.le, Option.map_some, Option.map_some,
        Option.none_or]
      by_cases hids : c.dataIds = []
      · have hnone : c.owners[p] = none := by
          simpa [ownerId?, List.getElem?_eq_getElem hlt] using h.unowned hids p
        rw [hids, turn_nil, hnone, Option.none_or]
      · obtain ⟨id, -, hturn⟩ := exists_turn hids p
        rw [hturn, Option.some_or]
  · next hp =>
      have hle : c.owners.length ≤ p := h.length ▸ Nat.le_of_not_lt hp
      rw [List.getElem?_eq_none hle]
      rfl

theorem Coherent.rebalance (h : Coherent c) : Coherent c.rebalance :=
  h.change (rewriting_rebalance c).change

theorem Coherent.ownerId?_rebalance (h : Coherent c) (hp : p < c.config.partitionCount) :
    c.rebalance.ownerId? p = turn c.dataIds p := by
  rw [ownerId?, h.owners_rebalance, getElem?_deal, List.getElem?_replicate, if_pos hp,
    List.take_replicate, List.count_replicate_self, Nat.min_eq_left hp.le]
  simp

theorem members_rebalance (h : Keyed.Sorted c.seats) : c.rebalance.members = c.members :=
  members_of_roster ((rewriting_rebalance c).roster h)

theorem dataIds_rebalance (h : Keyed.Sorted c.seats) : c.rebalance.dataIds = c.dataIds :=
  dataIds_of_roster ((rewriting_rebalance c).roster h)

theorem rebalance_rebalance (h : Keyed.Sorted c.seats) : c.rebalance.rebalance = c.rebalance := by
  refine rebalance_eq_self (List.ext_getElem? fun p => ?_)
  rw [dataIds_rebalance h, Cluster.rebalance, owners_announceAll, List.mapIdx_mapIdx]
  simp [Function.comp_def, ← Option.or_assoc]

theorem Coherent.load_rebalance (h : Coherent c) {id : MemberId} (hid : id ∈ c.dataIds) :
    load c.rebalance.owners id = share c.dataIds id c.config.partitionCount := by
  have hload := load_deal hid 0 0 (List.replicate c.config.partitionCount none)
  have hempty : load (List.replicate c.config.partitionCount none) id = 0 := by
    simp [load, List.count_replicate]
  rw [List.count_replicate_self, Nat.zero_add, hempty, Nat.zero_add] at hload
  rw [h.owners_rebalance, ← hload]
  simp [share]

structure Rebalanced (c d : Cluster) : Prop where
  members : d.members = c.members
  turns : ∀ p, p < c.config.partitionCount →
    d.owner? p = (dataMembers c.members)[p % (dataMembers c.members).length]?
  even : ∀ a ∈ dataMembers c.members, ∀ b ∈ dataMembers c.members,
    load d.owners a.id ≤ load d.owners b.id + 1
  told : ∃ log, d.history = c.history ++ log ∧ Told c.roster 0 c.owners d.owners log
  settled : d.rebalance = d

theorem Coherent.rebalanced (h : Coherent c) : Rebalanced c c.rebalance where
  members := members_rebalance h.sorted
  turns p hp := by
    have howner : c.rebalance.ownerId? p =
        c.rebalance.dataIds[p % (dataMembers c.members).length]? := by
      have hlength : (dataMembers c.members).length = c.dataIds.length := by
        rw [← h.ids_dataMembers, List.length_map]
      rw [h.ownerId?_rebalance hp, dataIds_rebalance h.sorted, hlength, turn]
    rw [h.rebalance.owner?_eq howner, members_rebalance h.sorted]
  even a ha b hb := by
    have hids (m : Member) (hm : m ∈ dataMembers c.members) : m.id ∈ c.dataIds :=
      h.ids_dataMembers ▸ List.mem_map_of_mem hm
    rw [h.load_rebalance (hids a ha), h.load_rebalance (hids b hb)]
    exact share_even (h.dataIds_sorted.imp ne_of_lt) (hids a ha) (hids b hb) _
  told := by
    obtain ⟨log, hlog, htold⟩ := h.told (rebalancing_shifts c.dataIds c.owners)
      fun _ => rebalancing_destination
    refine ⟨log, hlog, ?_⟩
    rw [Cluster.rebalance, owners_announceAll]
    exact htold
  settled := rebalance_rebalance h.sorted

theorem rebalance_in_turn {config : ClusterConfig} {c₀ : Cluster} (hnew : create config = .ok c₀)
    (es : List Event) :
    let c := c₀.afterAll es
    Rebalanced c c.rebalance ∧
      (c.members.map (·.id)).Pairwise (· < ·) ∧
      (∀ {config' : ClusterConfig} {c₀' : Cluster} (es' : List Event),
        create config' = .ok c₀' → config'.partitionCount = config.partitionCount →
        (∀ m, m ∈ (c₀'.afterAll es').members ↔ m ∈ c.members) →
        (c₀'.afterAll es').rebalance.owners = c.rebalance.owners) ∧
      (dataMembers c.members = [] → c.rebalance = c) := by
  intro c
  obtain ⟨rfl, hpos⟩ := create_eq hnew
  have h : Coherent c := ((sound_new hpos).afterAll es).coherent
  refine ⟨h.rebalanced, h.consistent.alive.2, ?_, fun hnone => ?_⟩
  · intro config' c₀' es' hnew' hcount hm
    obtain ⟨rfl, hpos'⟩ := create_eq hnew'
    have h' : Coherent ((new config').afterAll es') := ((sound_new hpos').afterAll es').coherent
    have hpartitions : ((new config').afterAll es').config.partitionCount =
        c.config.partitionCount := by
      rw [config_afterAll, config_afterAll]
      exact hcount
    rw [h.owners_rebalance, h'.owners_rebalance, h.dataIds_congr h' hm, hpartitions]
  · refine rebalance_of_dataIds_nil ?_
    rw [← h.ids_dataMembers, hnone, List.map_nil]

def skewed : List Event :=
  [.operate (.add ⟨"b", "x", false⟩ []), .operate (.add ⟨"d", "y", false⟩ []),
    .operate .rebalance, .operate (.remove "d"), .operate (.add ⟨"c", "y", true⟩ []),
    .operate (.add ⟨"a", "z", false⟩ []), .operate (.move 4 "a")]

def straight : List Event :=
  [.operate (.add ⟨"a", "z", false⟩ []), .operate (.add ⟨"b", "x", false⟩ []),
    .operate (.add ⟨"c", "y", true⟩ [])]

theorem rebalance_in_turn_of_skewed :
    let c := (new ⟨5, "s"⟩).afterAll skewed
    create ⟨5, "s"⟩ = .ok (new ⟨5, "s"⟩) ∧
      c.owners = [some "b", some "b", some "b", some "b", some "a"] ∧ Rebalanced c c.rebalance ∧
      ((new ⟨5, "s"⟩).afterAll straight).rebalance.owners = c.rebalance.owners := by
  intro c
  have hnew : create ⟨5, "s"⟩ = .ok (new ⟨5, "s"⟩) := rfl
  have hmembers : ((new ⟨5, "s"⟩).afterAll straight).members = c.members := by decide +kernel
  obtain ⟨hrebalanced, -, hsame, -⟩ := rebalance_in_turn hnew skewed
  refine ⟨hnew, by decide +kernel, hrebalanced, hsame straight hnew rfl fun m => ?_⟩
  rw [hmembers]

example : (((new ⟨5, "s"⟩).afterAll skewed).rebalance.history.drop 14).map
    (fun e => (e.1, e.2.hook.display)) =
      [(0, "-0"), (3, "+0"), (0, "-2"), (3, "+2")] := by decide +kernel

end Switchboard.Cluster
