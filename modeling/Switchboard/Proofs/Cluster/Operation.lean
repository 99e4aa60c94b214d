import Mathlib.Logic.Relation
import Switchboard.Proofs.Cluster.Announcement

namespace Switchboard

def Seat.shut (seat : Seat) : Seat := { seat with server := seat.server.shutdown.1 }

namespace Cluster

inductive Operation where
  | add (m : Member) (services : List (String × Service))
  | remove (id : MemberId)
  | move (p : PartitionId) (id : MemberId)
  | rebalance
  | shutdown

def attempt (c : Cluster) : Operation → Except ClusterError Cluster
  | .add m services => c.addMember m services
  | .remove id => (c.removeMember id).map (·.2)
  | .move p id => c.movePartition p id
  | .rebalance => .ok c.rebalance
  | .shutdown => .ok c.shutdown

def perform (c : Cluster) (o : Operation) : Cluster :=
  match c.attempt o with
  | .ok c' => c'
  | .error _ => c

def performAll (c : Cluster) (os : List Operation) : Cluster := os.foldl perform c

def seating (c : Cluster) (s : Server) : Cluster :=
  { c with
    seats := Keyed.insert s.member.id ⟨c.joined, s⟩ c.seats
    joined := c.joined + 1 }

def without (c : Cluster) (id : MemberId) (seat : Seat) : Cluster :=
  { c with
    seats := Keyed.erase id c.seats
    departed := seat.shut :: c.departed
    owners := c.owners.map fun o => if o = some id then none else o }

def closed (c : Cluster) : Cluster :=
  { c with
    running := false
    seats := []
    departed := ((Keyed.values c.seats).map Seat.shut).reverse ++ c.departed
    owners := c.owners.map fun _ => none }

inductive Change (c : Cluster) : Cluster → Prop
  | hooks (n : Nat) (runs : List HookRun) : Change c (c.record n runs)
  | seat (s : Server) : Keyed.find? s.member.id c.seats = none → s.status = .running →
      s.partitions = [] → Change c (c.seating s)
  | leave (id : MemberId) (seat : Seat) : Keyed.find? id c.seats = some seat →
      Change c (c.without id seat)
  | rewrite (t : Table) (ms : List Move) : Rewrites c.owners ms t →
      (∀ m ∈ ms, m.destination ∈ c.dataIds) → Change c ({ c with owners := t }.announceAll ms)
  | close (history : List (Nat × HookRun)) : Change c { c.closed with history := history }

abbrev Changes : Cluster → Cluster → Prop := Relation.ReflTransGen Change

variable {c c' : Cluster} {id : MemberId} {seat : Seat}

theorem changes_addMember {m : Member} {services : List (String × Service)}
    (h : c.addMember m services = .ok c') : Changes c c' := by
  unfold addMember at h
  split at h
  · cases h
  split at h
  · cases h
  next hm =>
  have hfree : Keyed.find? m.id c.seats = none := by
    simpa [Keyed.contains, Option.isSome_iff_ne_none] using hm
  cases h
  have hseat : Change c
      (c.seating { Server.new c.config.slice m services with status := .running }) :=
    .seat _ hfree rfl rfl
  exact .tail (.single hseat) (.hooks c.joined [⟨.start, .unstarted⟩])

inductive Rewriting (c : Cluster) : Cluster → Prop
  | moves (t : Table) (ms : List Move) : Rewrites c.owners ms t →
      (∀ m ∈ ms, m.destination ∈ c.dataIds) →
      Rewriting c ({ c with owners := t }.announceAll ms)

theorem Rewriting.change (h : Rewriting c c') : Change c c' := by
  cases h with
  | moves t ms hw hd => exact .rewrite t ms hw hd

theorem Rewriting.roster (h : Rewriting c c') (hs : Keyed.Sorted c.seats) :
    c'.roster = c.roster := by
  cases h with
  | moves t ms hw hd => exact roster_announceAll (c := { c with owners := t }) hs ms

theorem Rewriting.running (h : Rewriting c c') : c'.running = c.running := by
  cases h with
  | moves t ms hw hd => exact running_announceAll ..

theorem rewriting_assignUnowned (c : Cluster) : Rewriting c c.assignUnowned :=
  .moves _ _ (deal_rewrites c.dataIds c.owners) fun _ => deal_destination

theorem changes_removeMember {r : Member × Cluster}
    (h : c.removeMember id = .ok r) : Changes c r.2 := by
  unfold removeMember at h
  split at h
  · cases h
  next seat hs =>
  have hleave : Changes c (c.without id seat) := .single (.leave id seat hs)
  have hrest := (hleave.tail (.hooks seat.number seat.server.shutdown.2)).tail
    (rewriting_assignUnowned _).change
  cases h
  exact hrest

theorem rewriting_rebalance (c : Cluster) : Rewriting c c.rebalance :=
  .moves _ _ (rebalancing_rewrites c.dataIds c.owners) fun _ => rebalancing_destination

theorem rebalance_eq_self (h : (c.owners.mapIdx fun p o => (turn c.dataIds p).or o) = c.owners) :
    c.rebalance = c := by
  have hmoves : rebalancing c.dataIds c.owners = [] := by
    have hshifts := rebalancing_shifts c.dataIds c.owners
    rw [h] at hshifts
    exact hshifts.eq_nil
  simp only [rebalance, h, hmoves]
  rfl

theorem turn_nil (p : PartitionId) : turn [] p = none := rfl

theorem rebalance_of_dataIds_nil (h : c.dataIds = []) : c.rebalance = c := by
  refine rebalance_eq_self (List.ext_getElem? fun p => ?_)
  simp [h, turn_nil]

theorem mem_dataIds_of_find? (h : Keyed.find? id c.seats = some seat)
    (hl : seat.server.member.lite = false) : id ∈ c.dataIds := by
  simp only [dataIds, List.mem_map, List.mem_filter]
  exact ⟨_, ⟨Keyed.mem_of_find? h, by simp [hl]⟩, rfl⟩

theorem rewriting_movePartition {p : PartitionId}
    (h : c.movePartition p id = .ok c') : Rewriting c c' := by
  unfold movePartition at h
  split at h
  · cases h
  next seat hs =>
  split at h
  · cases h
  next hl =>
  split at h
  · cases h
  next o ho =>
  have hid : id ∈ c.dataIds := mem_dataIds_of_find? hs (by simpa using hl)
  cases h
  split
  · next hsame =>
      have hw : Rewrites c.owners [] (c.owners.set p (some id)) := by
        obtain ⟨hp, ho⟩ := List.getElem?_eq_some_iff.1 ho
        rw [← hsame, ← ho, List.set_getElem_self]
        rfl
      exact .moves _ _ hw (by simp)
  · have hw : Rewrites c.owners [⟨p, o, id⟩] (c.owners.set p (some id)) := ⟨ho, rfl⟩
    exact .moves _ _ hw (by simpa using hid)

theorem foldl_retire (entries : List (MemberId × Seat)) (c : Cluster) :
    ∃ history, entries.foldl retire c =
      { c with
        departed := ((Keyed.values entries).map Seat.shut).reverse ++ c.departed
        history := history } := by
  induction entries generalizing c with
  | nil => exact ⟨c.history, rfl⟩
  | cons e rest ih =>
      obtain ⟨history, h⟩ := ih (c.retire e)
      refine ⟨history, ?_⟩
      rw [List.foldl_cons, h]
      simp [retire, Cluster.record, Keyed.values, Seat.shut]

theorem changes_shutdown (c : Cluster) : Changes c c.shutdown := by
  unfold shutdown
  split
  · obtain ⟨history, h⟩ := foldl_retire c.seats
      { c with running := false, seats := [], owners := c.owners.map fun _ => none }
    rw [h]
    exact .single (.close history)
  · exact .refl

theorem attempt_remove (h : c.attempt (.remove id) = .ok c') :
    ∃ r, c.removeMember id = .ok r ∧ r.2 = c' := by
  cases hr : c.removeMember id with
  | error e => simp [attempt, hr, Except.map] at h
  | ok r => exact ⟨r, rfl, by simpa [attempt, hr, Except.map] using h⟩

theorem changes_perform (c : Cluster) (o : Operation) : Changes c (c.perform o) := by
  unfold perform
  split
  next c' h =>
    cases o with
    | add m services => exact changes_addMember h
    | remove id =>
        obtain ⟨r, hr, rfl⟩ := attempt_remove h
        exact changes_removeMember hr
    | move p id => exact .single (rewriting_movePartition h).change
    | rebalance =>
        cases h
        exact .single (rewriting_rebalance c).change
    | shutdown =>
        cases h
        exact changes_shutdown c
  next => exact .refl

theorem invariant_of_steps {R : Cluster → Cluster → Prop} {P : Cluster → Prop}
    {c c' : Cluster} (h : Relation.ReflTransGen R c c') (hP : ∀ {c c'}, R c c' → P c → P c')
    (hc : P c) : P c' := by
  induction h with
  | refl => exact hc
  | tail _ hstep ih => exact hP hstep ih

theorem changes_performAll (c : Cluster) (os : List Operation) : Changes c (c.performAll os) := by
  induction os generalizing c with
  | nil => exact .refl
  | cons o os ih => exact (changes_perform c o).trans (ih _)

end Cluster

end Switchboard
