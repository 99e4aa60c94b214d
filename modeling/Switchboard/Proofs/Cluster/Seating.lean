import Switchboard.Proofs.Cluster.Consistency

namespace Switchboard

def Task.ticket (t : Task) : Task := { t with stage := .queued }

namespace Cluster

variable {c c' : Cluster} {seat : Seat}

def allSeats (c : Cluster) : List Seat := Keyed.values c.seats ++ c.departed

def tickets (c : Cluster) : List Task := c.tasks.map Task.ticket

def badges (c : Cluster) : List (Nat × Member) := c.allSeats.map Seat.badge

theorem badges_eq (c : Cluster) :
    c.badges = c.roster.map (·.2) ++ c.departed.map Seat.badge := by
  simp [badges, allSeats, roster, Keyed.values, Function.comp_def]

theorem badge_shut (seat : Seat) : seat.shut.badge = seat.badge := by
  unfold Seat.shut Seat.badge Server.shutdown
  split <;> rfl

theorem shut_not_running (seat : Seat) : seat.shut.server.isRunning = false := by
  unfold Seat.shut Server.shutdown Server.isRunning
  split <;> simp_all

theorem badges_seating {s : Server} (h : Keyed.find? s.member.id c.seats = none) :
    (c.seating s).badges.Perm ((c.joined, s.member) :: c.badges) := by
  have hp := (Keyed.insert_perm (⟨c.joined, s⟩ : Seat) h).map fun e => e.2.badge
  simpa [badges, allSeats, seating, Keyed.values, Function.comp_def, Seat.badge] using
    hp.append_right (c.departed.map Seat.badge)

theorem badges_without {id : MemberId} (h : Keyed.find? id c.seats = some seat) :
    (c.without id seat).badges.Perm c.badges := by
  have hp := (Keyed.erase_perm h).map fun e => e.2.badge
  have hall := hp.append_right (c.departed.map Seat.badge)
  refine List.Perm.trans ?_ (by simpa [badges, allSeats, Keyed.values, Function.comp_def] using hall)
  simp [badges, allSeats, without, Keyed.values, Function.comp_def, badge_shut,
    List.perm_middle]

theorem badges_closed (c : Cluster) : c.closed.badges.Perm c.badges := by
  simp only [badges, allSeats, closed, Keyed.values, List.map_nil, List.nil_append,
    List.map_append, List.map_reverse, List.map_map, Function.comp_def, badge_shut]
  exact (List.reverse_perm _).append_right _

theorem badges_change (hc : Change c c') (h : Keyed.Sorted c.seats) :
    (c'.joined = c.joined ∧ c'.badges.Perm c.badges) ∨
      ∃ m, c'.joined = c.joined + 1 ∧ c'.badges.Perm ((c.joined, m) :: c.badges) := by
  cases hc with
  | hooks n runs => exact Or.inl ⟨rfl, .refl _⟩
  | seat s hfree _ _ => exact Or.inr ⟨s.member, rfl, badges_seating hfree⟩
  | leave id seat hs => exact Or.inl ⟨rfl, badges_without hs⟩
  | rewrite t ms _ _ =>
      have hsorted : Keyed.Sorted ({ c with owners := t } : Cluster).seats := h
      refine Or.inl ⟨joined_announceAll .., ?_⟩
      rw [badges_eq, roster_announceAll hsorted, departed_announceAll, badges_eq]
      exact .refl _
  | close history => exact Or.inl ⟨rfl, badges_closed c⟩

/-- A coherent cluster in which a number stands for one seat for good, those who left do not run,
and a task is known by its place. -/
structure Sound (c : Cluster) : Prop where
  coherent : Coherent c
  distinct : (c.badges.map (·.1)).Nodup
  below : ∀ b ∈ c.badges, b.1 < c.joined
  ended : ∀ s ∈ c.departed, s.server.isRunning = false
  places : ∀ (n : Nat) (t : Task), c.tickets[n]? = some t → t.number = n

theorem sound_new {config : ClusterConfig} (h : 0 < config.partitionCount) :
    Sound (new config) where
  coherent := coherent_new h
  distinct := List.nodup_nil
  below _ hb := by simp [badges, allSeats, new, Keyed.values] at hb
  ended _ hs := by simp [new] at hs
  places _ _ ht := by simp [tickets, new] at ht

theorem departed_change (hc : Change c c') (h : ∀ s ∈ c.departed, s.server.isRunning = false) :
    ∀ s ∈ c'.departed, s.server.isRunning = false := by
  intro s hs
  cases hc with
  | hooks n runs => exact h s hs
  | seat _ _ _ _ => exact h s hs
  | leave id seat _ =>
      rcases List.mem_cons.1 hs with rfl | hs
      · exact shut_not_running seat
      · exact h s hs
  | rewrite t ms _ _ =>
      rw [departed_announceAll] at hs
      exact h s hs
  | close history =>
      rcases List.mem_append.1 hs with hs | hs
      · obtain ⟨seat, -, rfl⟩ := List.mem_map.1 (List.mem_reverse.1 hs)
        exact shut_not_running seat
      · exact h s hs

theorem tasks_change (hc : Change c c') : c'.tasks = c.tasks := by
  cases hc with
  | rewrite t ms _ _ => exact tasks_announceAll ..
  | _ => rfl

theorem tickets_change (hc : Change c c') : c'.tickets = c.tickets :=
  congrArg (List.map Task.ticket) (tasks_change hc)

theorem Sound.change (hc : Change c c') (h : Sound c) : Sound c' where
  coherent := h.coherent.change hc
  distinct := by
    rcases badges_change hc h.coherent.sorted with ⟨-, hp⟩ | ⟨m, -, hp⟩
    · exact (hp.map _).nodup_iff.2 h.distinct
    · refine (hp.map _).nodup_iff.2 (List.nodup_cons.2 ⟨?_, h.distinct⟩)
      intro hm
      obtain ⟨b, hb, he⟩ := List.mem_map.1 hm
      exact (h.below b hb).ne he
  below b hb := by
    rcases badges_change hc h.coherent.sorted with ⟨hj, hp⟩ | ⟨m, hj, hp⟩
    · rw [hj]
      exact h.below b (hp.mem_iff.1 hb)
    · rw [hj]
      rcases List.mem_cons.1 (hp.mem_iff.1 hb) with rfl | hb
      · exact Nat.lt_succ_self _
      · exact Nat.lt_succ_of_lt (h.below b hb)
  ended := departed_change hc h.ended
  places n t ht := h.places n t (tickets_change hc ▸ ht)

theorem mem_badges_change (hc : Change c c') (h : Sound c) {b : Nat × Member}
    (hb : b ∈ c.badges) : b ∈ c'.badges := by
  rcases badges_change hc h.coherent.sorted with ⟨-, hp⟩ | ⟨m, -, hp⟩
  · exact hp.mem_iff.2 hb
  · exact hp.mem_iff.2 (List.mem_cons_of_mem _ hb)

end Cluster

end Switchboard
