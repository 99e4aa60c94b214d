import Switchboard.Proofs.Cluster.Schedule

namespace Switchboard

namespace Cluster

variable {c : Cluster} {n : Nat} {t : Task} {seat : Seat}

theorem accept_eq_ok {s : Server} {p : Option PartitionId} {name : String} {svc : Service}
    (h : s.accept p name = .ok svc) :
    s.isRunning = true ∧ ∀ q, p = some q → q ∈ s.partitions := by
  unfold Server.accept at h
  split at h
  · cases h
  next hr =>
  split at h
  · cases h
  next hp =>
  refine ⟨by simpa using hr, ?_⟩
  rintro q rfl
  simpa [Server.owns, Option.filter] using hp

theorem Sound.current (h : Sound c) (hs : c.seat? n = some seat)
    (hr : seat.server.isRunning = true) :
    (seat.server.member.id, seat) ∈ c.seats := by
  rcases List.mem_append.1 (seat?_mem hs).1 with hm | hm
  · obtain ⟨⟨id, s⟩, he, rfl⟩ := List.mem_map.1 hm
    rwa [(h.coherent.serves he).member]
  · rw [h.ended seat hm] at hr
    cases hr

theorem route_target (c : Cluster) (call : Call) {m : Member} {id : MemberId}
    {p : Option PartitionId} (h : c.route call (some m) = .ok (id, p)) : id = m.id ∧ p = none := by
  unfold route at h
  split at h
  · cases h
  · cases h
    exact ⟨rfl, rfl⟩

theorem route_key (c : Cluster) {call : Call} {k : PartitionKey} {id : MemberId}
    {p : Option PartitionId} (hk : call.key = some k) (h : c.route call none = .ok (id, p)) :
    p = some (c.partitionFor k) ∧ c.ownerId? (c.partitionFor k) = some id := by
  unfold route at h
  split at h
  · cases h
  rw [hk] at h
  simp only at h
  split at h
  · next ho =>
      cases h
      exact ⟨rfl, ho⟩
  · cases h

theorem Sound.waiting_task (h : Sound c) {call : Call} {target : Option Member}
    (hsent : (c.submit call target).1 = .task n) (es : List Event)
    (ht : ((c.after (.submit call target)).afterAll es).tasks[n]? = some t) :
    ∃ id p found, c.route call target = .ok (id, p) ∧ Keyed.find? id c.seats = some found ∧
      t.call = call ∧ t.partition = p ∧ t.seat = found.number ∧
      found.badge ∈ ((c.after (.submit call target)).afterAll es).badges := by
  obtain ⟨id, p, found, hr, hs, hn, hc⟩ := submit_task hsent
  have hticket : (c.after (.submit call target)).tickets[n]? =
      some ⟨c.tasks.length, found.number, call, p, .queued⟩ := by
    change (c.submit call target).2.tickets[n]? = _
    rw [hc, tickets, List.map_append, hn, List.getElem?_append_right (by simp)]
    simp [Task.ticket]
  obtain ⟨rest, hrest⟩ := tickets_afterAll (c.after (.submit call target)) es
  have hsame : t.ticket = ⟨c.tasks.length, found.number, call, p, .queued⟩ := by
    have hlater : ((c.after (.submit call target)).tickets ++ rest)[n]? = _ :=
      List.getElem?_append_left (List.getElem?_eq_some_iff.1 hticket).1
    rw [hrest, hticket, tickets, List.getElem?_map, ht] at hlater
    exact Option.some.inj hlater
  have hbadge : found.badge ∈ c.badges :=
    List.mem_map_of_mem (List.mem_append_left _ (List.mem_map_of_mem (Keyed.mem_of_find? hs)))
  exact ⟨id, p, found, hr, hs, congrArg Task.call hsame, congrArg Task.partition hsame,
    congrArg Task.seat hsame,
    mem_badges_afterAll h hbadge (.submit call target :: es)⟩

theorem badge_unique (h : Sound c) {b : Nat × Member} (hb : b ∈ c.badges)
    (hs : c.seat? n = some seat) (hn : b.1 = n) : seat.server.member = b.2 := by
  obtain ⟨other, hm, rfl⟩ := List.mem_map.1 hb
  have hother := h.seat?_eq hm
  rw [show other.number = n from hn, hs] at hother
  cases hother
  rfl

/-- The server found by a key owns the partition of the key when it calls a handler, whatever came
between; the server found by its member is then the one that was found. -/
theorem handler_placement {config : ClusterConfig} {c₀ : Cluster} (hnew : create config = .ok c₀)
    (before between : List Event) (call : Call) (target : Option Member) {n : Nat} {seat : Seat}
    {svc : Service}
    (hsent : ((c₀.afterAll before).submit call target).1 = .task n)
    (hcall : (c₀.afterAll (before ++ .submit call target :: between)).invokes? n =
      some (seat, svc)) :
    let c := c₀.afterAll before
    let c' := c₀.afterAll (before ++ .submit call target :: between)
    (∃ t, c'.tasks[n]? = some t ∧ ∀ now, c'.after (.run now n) =
      c'.work now t seat.server (svc.respond call.method call.argTypes call.args)) ∧
    (∀ k, target = none → call.key = some k →
      Keyed.find? seat.server.member.id c'.seats = some seat ∧ seat.server.status = .running ∧
        seat.server.member.lite = false ∧
        c'.owner? (c'.partitionFor k) = some seat.server.member) ∧
    ∀ m, target = some m →
      Keyed.find? m.id c'.seats = some seat ∧ seat.server.status = .running ∧
        ∃ found, Keyed.find? m.id c.seats = some found ∧ found.number = seat.number := by
  intro c c'
  obtain ⟨rfl, hpos⟩ := create_eq hnew
  have hc : Sound c := (sound_new hpos).afterAll before
  have hc' : Sound c' := (sound_new hpos).afterAll _
  have hsplit : c' = (c.after (.submit call target)).afterAll between := by
    simp [c, c', afterAll]
  obtain ⟨t, ht, hq, hseat, hok⟩ := invokes?_eq_some.1 hcall
  obtain ⟨hrun, howns⟩ := accept_eq_ok hok
  have hlater : ((c.after (.submit call target)).afterAll between).tasks[n]? = some t := by
    rw [← hsplit]
    exact ht
  obtain ⟨id, p, found, hroute, hfound, htc, htp, hts, hbadge⟩ :=
    hc.waiting_task hsent between hlater
  have hmem := hc'.current hseat hrun
  have hfind := Keyed.find?_of_mem hc'.coherent.sorted hmem
  have hstatus := (hc'.coherent.serves hmem).running
  refine ⟨⟨t, ht, fun now => ?_⟩, ?_, ?_⟩
  · rw [← htc]
    exact runTaskAt_of_invokes? now ht hcall
  · rintro k rfl hk
    obtain ⟨rfl, -⟩ := route_key c hk hroute
    have hp : c'.partitionFor k = c.partitionFor k := by
      have hconfig := config_afterAll c (.submit call none :: between)
      rw [hsplit]
      exact congrArg (k.partition ·.partitionCount) hconfig
    have hown := (hc'.coherent.mem_partitions hmem).1 (howns _ htp)
    obtain ⟨s, hs, howner, hlite⟩ := hc'.coherent.owner_seat hown
    rw [hc'.coherent.seat_unique hmem hs] at howner hlite
    exact ⟨hfind, hstatus, hlite, hp ▸ howner⟩
  · rintro m rfl
    obtain ⟨rfl, -⟩ := route_target c call hroute
    have hmember := badge_unique hc' (hsplit ▸ hbadge) hseat hts.symm
    have hid : seat.server.member.id = m.id := by
      rw [hmember]
      exact (hc.coherent.agrees _ _ hfound).member
    exact ⟨hid ▸ hfind, hstatus, found, hfound, hts.symm.trans (seat?_mem hseat).2.symm⟩

theorem partitionFor_single (h : c.config.partitionCount = 1) (k : PartitionKey) :
    c.partitionFor k = 0 := by
  simp [partitionFor, PartitionKey.partition, h, Nat.mod_one]

def silent : Service := { respond := fun _ _ _ => .done (.ok .null) }

def partner : Seat := ⟨1, ⟨"s", ⟨"b", "y", false⟩, .running, [0], [("S", silent)]⟩⟩

def keyed : Call := ⟨"s", "S", "m", [], [], some ⟨.str "k"⟩⟩

def founding : List Event :=
  [.operate (.add ⟨"a", "x", false⟩ [("S", silent)]),
    .operate (.add ⟨"b", "y", false⟩ [("S", silent)]), .operate (.move 0 "b")]

def detour : List Event :=
  [.operate (.move 0 "a"), .operate (.remove "a"),
    .operate (.add ⟨"a", "x", false⟩ [("S", silent)])]

theorem handler_placement_after_return :
    (((new ⟨1, "s"⟩).afterAll founding).submit keyed none).1 = .task 0 ∧
      ((new ⟨1, "s"⟩).afterAll (founding ++ .submit keyed none :: detour)).invokes? 0 =
        some (partner, silent) ∧
      ((new ⟨1, "s"⟩).afterAll (founding ++ .submit keyed none :: detour)).owner?
        (((new ⟨1, "s"⟩).afterAll (founding ++ .submit keyed none :: detour)).partitionFor
          ⟨.str "k"⟩) = some partner.server.member := by
  have hnew : create ⟨1, "s"⟩ = .ok (new ⟨1, "s"⟩) := rfl
  have hzero : ((new ⟨1, "s"⟩).afterAll founding).partitionFor ⟨.str "k"⟩ = 0 :=
    partitionFor_single (congrArg ClusterConfig.partitionCount (config_afterAll _ founding)) _
  have howner : ((new ⟨1, "s"⟩).afterAll founding).ownerId?
      (((new ⟨1, "s"⟩).afterAll founding).partitionFor ⟨.str "k"⟩) = some "b" := by
    rw [hzero]
    rfl
  have hfound : Keyed.find? "b" ((new ⟨1, "s"⟩).afterAll founding).seats = some partner := rfl
  have hsubmit := @submit_by_key _ _ keyed _ _ rfl rfl howner hfound rfl
  have hsent : (((new ⟨1, "s"⟩).afterAll founding).submit keyed none).1 = .task 0 := by
    rw [hsubmit]
    rfl
  have hcall : ((new ⟨1, "s"⟩).afterAll (founding ++ .submit keyed none :: detour)).invokes? 0 =
      some (partner, silent) := by
    change ((((new ⟨1, "s"⟩).afterAll founding).submit keyed none).2.afterAll detour).invokes? 0 = _
    rw [hsubmit, hzero]
    rfl
  have hplaced := (handler_placement hnew founding detour keyed none hsent hcall).2.1 _ rfl rfl
  exact ⟨hsent, hcall, hplaced.2.2.2⟩

end Cluster

end Switchboard
