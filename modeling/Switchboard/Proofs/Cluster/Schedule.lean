import Switchboard.Cluster.Execution
import Switchboard.Proofs.Cluster.Seating

namespace Switchboard

def Seat.bare (s : Seat) : Seat := { s with server := { s.server with services := [] } }

namespace Cluster

inductive Event where
  | operate (o : Operation)
  | submit (call : Call) (target : Option Member)
  | run (now number : Nat)
  | abort (number : Nat)

def after (c : Cluster) : Event → Cluster
  | .operate o => c.perform o
  | .submit call target => (c.submit call target).2
  | .run now n => c.runTaskAt now n
  | .abort n => c.abort n

def afterAll (c : Cluster) (es : List Event) : Cluster := es.foldl after c

def seat? (c : Cluster) (number : Nat) : Option Seat := c.allSeats.find? (·.number = number)

theorem server?_eq (c : Cluster) (number : Nat) :
    c.server? number = (c.seat? number).map Seat.server := rfl

def invokes? (c : Cluster) (n : Nat) : Option (Seat × Service) :=
  (c.tasks[n]?).bind fun t =>
    (c.seat? t.seat).bind fun seat =>
      match t.stage, seat.server.accept t.partition t.call.service with
      | .queued, .ok svc => some (seat, svc)
      | _, _ => none

variable {c c' : Cluster} {n : Nat} {t : Task} {seat : Seat}

theorem invokes?_eq_some {svc : Service} :
    c.invokes? n = some (seat, svc) ↔
      ∃ t, c.tasks[n]? = some t ∧ t.stage = .queued ∧ c.seat? t.seat = some seat ∧
        seat.server.accept t.partition t.call.service = .ok svc := by
  simp only [invokes?, Option.bind_eq_some_iff]
  constructor
  · rintro ⟨t, ht, s, hs, h⟩
    split at h
    · next hq ha =>
        cases h
        exact ⟨t, ht, hq, hs, ha⟩
    · cases h
  · rintro ⟨t, ht, hq, hs, ha⟩
    exact ⟨t, ht, seat, hs, by simp [hq, ha]⟩

theorem runTaskAt_of_invokes? {svc : Service} (now : Nat) (ht : c.tasks[n]? = some t)
    (h : c.invokes? n = some (seat, svc)) :
    c.runTaskAt now n =
      c.work now t seat.server (svc.respond t.call.method t.call.argTypes t.call.args) := by
  obtain ⟨t', ht', hq, hs, ha⟩ := invokes?_eq_some.1 h
  rw [ht] at ht'
  cases ht'
  simp [runTaskAt, ht, runTask, server?_eq, hs, hq, ha]

theorem find?_of_nodup {seats : List Seat} (h : (seats.map (·.number)).Nodup) (hs : seat ∈ seats) :
    seats.find? (·.number = seat.number) = some seat := by
  induction seats with
  | nil => simp at hs
  | cons s rest ih =>
      obtain ⟨hnot, hrest⟩ := List.nodup_cons.1 h
      rcases List.mem_cons.1 hs with rfl | hs
      · simp
      · have hne : s.number ≠ seat.number := by
          intro he
          exact hnot (List.mem_map.2 ⟨seat, hs, he.symm⟩)
        simpa [hne] using ih hrest hs

theorem Sound.seat?_eq (h : Sound c) (hs : seat ∈ c.allSeats) :
    c.seat? seat.number = some seat := by
  refine find?_of_nodup ?_ hs
  simpa [badges, Function.comp_def, Seat.badge] using h.distinct

theorem seat?_mem (h : c.seat? n = some seat) : seat ∈ c.allSeats ∧ seat.number = n :=
  ⟨List.mem_of_find?_eq_some h, by simpa using List.find?_some h⟩

def bareSeats (c : Cluster) : List (MemberId × Seat) := c.seats.map fun e => (e.1, e.2.bare)

theorem Coherent.of_bareSeats (h : Coherent c) (hconfig : c'.config = c.config)
    (howners : c'.owners = c.owners) (hseats : c'.bareSeats = c.bareSeats) : Coherent c' := by
  have hfind (id : MemberId) : (Keyed.find? id c'.seats).map Seat.bare =
      (Keyed.find? id c.seats).map Seat.bare := by
    rw [← Keyed.find?_map, ← Keyed.find?_map]
    exact congrArg _ hseats
  have hsorted : Keyed.Sorted c'.seats := by
    rw [← Keyed.sorted_map Seat.bare]
    change Keyed.Sorted c'.bareSeats
    rw [hseats]
    exact (Keyed.sorted_map Seat.bare).2 h.sorted
  refine ⟨hconfig ▸ h.positive, howners ▸ hconfig ▸ h.length, hsorted, ?_, ?_⟩
  · intro id seat hs
    obtain ⟨old, hold, hbare⟩ := Option.map_eq_some_iff.1 ((hfind id).symm.trans (by rw [hs]; rfl))
    have hserves : Serves c.owners id old.bare.server := by
      obtain ⟨hm, hr, ho, hp⟩ := h.agrees id old hold
      exact ⟨hm, hr, ho, hp⟩
    rw [hbare, ← howners] at hserves
    exact ⟨hserves.member, hserves.running, hserves.ordered, hserves.owned⟩
  · intro id ho
    rw [howners] at ho
    obtain ⟨old, hold, hl⟩ := (mem_dataIds h.sorted).1 (h.eligible id ho)
    obtain ⟨seat, hs, hbare⟩ := Option.map_eq_some_iff.1 ((hfind id).trans (by rw [hold]; rfl))
    refine (mem_dataIds hsorted).2 ⟨seat, hs, ?_⟩
    exact (congrArg (·.server.member.lite) hbare).trans hl

theorem update_bare {s : Server} {services : List (String × Service)}
    (h : seat.number = n → seat.server = s) :
    (Seat.update n { s with services := services } seat).bare = seat.bare := by
  unfold Seat.update
  split
  · next hn => simp [Seat.bare, h hn]
  · rfl

theorem Sound.server_eq {s : Server} (h : Sound c) (hn : c.server? n = some s)
    (hs : seat ∈ c.allSeats) (he : seat.number = n) : seat.server = s := by
  subst he
  rw [server?_eq, h.seat?_eq hs] at hn
  exact Option.some.inj hn

theorem bareSeats_updateServer {s : Server} (h : Sound c) (hn : c.server? n = some s)
    (services : List (String × Service)) :
    (c.updateServer n { s with services := services }).bareSeats = c.bareSeats := by
  simp only [bareSeats, updateServer, List.map_map]
  refine List.map_congr_left fun e he => ?_
  have hmem : e.2 ∈ c.allSeats := List.mem_append_left _ (List.mem_map_of_mem he)
  simp [update_bare (h.server_eq hn hmem)]

theorem departed_updateServer {s : Server} (h : Sound c) (hn : c.server? n = some s)
    (services : List (String × Service)) :
    (c.updateServer n { s with services := services }).departed.map Seat.bare =
      c.departed.map Seat.bare := by
  simp only [updateServer, List.map_map]
  refine List.map_congr_left fun e he => ?_
  simp [update_bare (h.server_eq hn (List.mem_append_right _ he))]

theorem badges_of_bare (hseats : c'.bareSeats = c.bareSeats)
    (hdeparted : c'.departed.map Seat.bare = c.departed.map Seat.bare) : c'.badges = c.badges := by
  have hs := congrArg (List.map fun e : MemberId × Seat => e.2.badge) hseats
  have hd := congrArg (List.map Seat.badge) hdeparted
  simp only [bareSeats, List.map_map] at hs hd
  simp only [badges, allSeats, Keyed.values, List.map_append, List.map_map]
  exact congrArg₂ _ hs hd

theorem Sound.updateServer {s : Server} (h : Sound c) (hn : c.server? n = some s)
    (services : List (String × Service)) :
    Sound (c.updateServer n { s with services := services }) := by
  have hseats := bareSeats_updateServer h hn services
  have hdeparted := departed_updateServer h hn services
  have hbadges := badges_of_bare hseats hdeparted
  refine ⟨h.coherent.of_bareSeats rfl rfl hseats, hbadges ▸ h.distinct, hbadges ▸ h.below, ?_,
    h.places⟩
  intro seat hs
  have hmem : seat.bare ∈ c.departed.map Seat.bare := hdeparted ▸ List.mem_map_of_mem hs
  obtain ⟨old, hold, hbare⟩ := List.mem_map.1 hmem
  have hrun := congrArg (·.server.isRunning) hbare
  exact hrun.symm.trans (h.ended old hold)

theorem tickets_modify {f : Task → Task} (hf : ∀ t, (f t).ticket = t.ticket) (n : Nat)
    (ts : List Task) : (ts.modify n f).map Task.ticket = ts.map Task.ticket := by
  refine List.ext_getElem? fun i => ?_
  rw [List.getElem?_map, List.getElem?_modify, List.getElem?_map]
  cases ts[i]? with
  | none => rfl
  | some t =>
      simp only [Option.map_eq_map, Option.map_some]
      split <;> simp [hf]

theorem Sound.withTasks (h : Sound c) {ts : List Task}
    (hp : ∀ (n : Nat) (t : Task), (ts.map Task.ticket)[n]? = some t → t.number = n) :
    Sound { c with tasks := ts } :=
  ⟨⟨h.coherent.positive, h.coherent.length, h.coherent.sorted, h.coherent.agrees,
    h.coherent.eligible⟩, h.distinct, h.below, h.ended, hp⟩

theorem getElem?_concat_eq_some {α : Type} {l : List α} {a b : α} {n : Nat}
    (h : (l ++ [a])[n]? = some b) : l[n]? = some b ∨ n = l.length ∧ b = a := by
  rw [List.getElem?_append] at h
  split at h
  · exact Or.inl h
  · rw [List.getElem?_singleton] at h
    split at h
    · exact Or.inr ⟨by omega, (Option.some.inj h).symm⟩
    · cases h

inductive Turn (c : Cluster) : Cluster → Prop
  | change {c' : Cluster} : Change c c' → Turn c c'
  | enqueue (t : Task) : t.number = c.tasks.length → Turn c { c with tasks := c.tasks ++ [t] }
  | restage (n : Nat) (f : Stage → Stage) :
      Turn c { c with tasks := c.tasks.modify n fun t => { t with stage := f t.stage } }
  | serve (n : Nat) (s : Server) (services : List (String × Service)) : c.server? n = some s →
      Turn c (c.updateServer n { s with services := services })

abbrev Turns : Cluster → Cluster → Prop := Relation.ReflTransGen Turn

theorem submit_task {call : Call} {target : Option Member}
    (h : (c.submit call target).1 = .task n) :
    ∃ id p seat, c.route call target = .ok (id, p) ∧ Keyed.find? id c.seats = some seat ∧
      n = c.tasks.length ∧
      (c.submit call target).2 =
        { c with tasks := c.tasks ++ [⟨c.tasks.length, seat.number, call, p, .queued⟩] } := by
  unfold submit at h ⊢
  split at h
  · cases h
  next id p hr =>
  split at h
  · cases h
  next seat hs =>
  split at h
  · cases h
  next hslice =>
  cases h
  exact ⟨id, p, seat, hr, hs, rfl, by simp [hslice]⟩

theorem submit_settled {call : Call} {target : Option Member} {r : CallResult}
    (h : (c.submit call target).1 = .settled r) :
    (c.submit call target).2 = c ∧ ∃ e, r = .error e := by
  unfold submit at h ⊢
  split at h
  · cases h
    exact ⟨rfl, _, rfl⟩
  split at h
  · cases h
    exact ⟨rfl, _, rfl⟩
  split at h
  · next hslice =>
      cases h
      exact ⟨by simp [hslice], _, rfl⟩
  · cases h

theorem submit_by_key {call : Call} {k : PartitionKey} {id : MemberId} (hr : c.running = true)
    (hk : call.key = some k) (ho : c.ownerId? (c.partitionFor k) = some id)
    (hs : Keyed.find? id c.seats = some seat) (hslice : seat.server.slice = call.slice) :
    c.submit call none = (.task c.tasks.length,
      { c with
        tasks := c.tasks ++
          [⟨c.tasks.length, seat.number, call, some (c.partitionFor k), .queued⟩] }) := by
  have hroute : c.route call none = .ok (id, some (c.partitionFor k)) := by
    simp [route, hr, hk, ho]
  simp [submit, hroute, hs, hslice]

theorem work_eq (c : Cluster) (now : Nat) (t : Task) (s : Server) (w : Work) :
    ∃ services stage, c.work now t s w =
      (c.updateServer t.seat { s with services := services }).setStage t.number stage :=
  ⟨_, _, rfl⟩

theorem runTaskAt_cases (c : Cluster) (now n : Nat) :
    c.runTaskAt now n = c ∨
      ∃ t, c.tasks[n]? = some t ∧
        ((∃ e, t.stage = .queued ∧ c.runTaskAt now n = c.setStage t.number (.refused e)) ∨
          ∃ s w, c.server? t.seat = some s ∧ c.runTaskAt now n = c.work now t s w) := by
  unfold runTaskAt
  cases ht : c.tasks[n]? with
  | none => exact Or.inl rfl
  | some t =>
      simp only [runTask]
      split
      · next s hs hq =>
          split
          · next e ha => exact Or.inr ⟨t, rfl, Or.inl ⟨e, hq, rfl⟩⟩
          · exact Or.inr ⟨t, rfl, Or.inr ⟨s, _, hs, rfl⟩⟩
      · next s wake rest hs hq =>
          split
          · exact Or.inr ⟨t, rfl, Or.inr ⟨s, rest, hs, rfl⟩⟩
          · exact Or.inl rfl
      · exact Or.inl rfl

theorem turns_submit (c : Cluster) (call : Call) (target : Option Member) :
    Turns c (c.submit call target).2 := by
  cases hr : (c.submit call target).1 with
  | settled r => exact (submit_settled hr).1.symm ▸ .refl
  | task n =>
      obtain ⟨id, p, seat, -, -, -, hc⟩ := submit_task hr
      rw [hc]
      exact .single (.enqueue _ rfl)

theorem turns_runTaskAt (c : Cluster) (now n : Nat) : Turns c (c.runTaskAt now n) := by
  rcases runTaskAt_cases c now n with hc | ⟨t, -, ⟨e, -, hc⟩ | ⟨s, w, hs, hc⟩⟩
  · exact hc.symm ▸ .refl
  · rw [hc]
    exact .single (.restage t.number fun _ => .refused e)
  · obtain ⟨services, stage, hw⟩ := work_eq c now t s w
    rw [hc, hw]
    exact .tail (.single (.serve t.seat s services hs)) (.restage t.number fun _ => stage)

theorem turns_after (c : Cluster) (e : Event) : Turns c (c.after e) := by
  cases e with
  | operate o => exact (changes_perform c o).lift id fun _ _ => .change
  | submit call target => exact turns_submit c call target
  | run now n => exact turns_runTaskAt c now n
  | abort n => exact .single (.restage n Stage.abort)

theorem turns_afterAll (c : Cluster) (es : List Event) : Turns c (c.afterAll es) := by
  induction es generalizing c with
  | nil => exact .refl
  | cons e es ih => exact (turns_after c e).trans (ih _)

theorem tickets_restage (c : Cluster) (n : Nat) (f : Stage → Stage) :
    tickets { c with tasks := c.tasks.modify n fun t => { t with stage := f t.stage } } =
      c.tickets :=
  tickets_modify (f := fun t => { t with stage := f t.stage }) (fun _ => rfl) n c.tasks

theorem Sound.turn (hc : Turn c c') (h : Sound c) : Sound c' := by
  cases hc with
  | change hc => exact h.change hc
  | enqueue t ht =>
      refine h.withTasks fun m u hu => ?_
      rw [List.map_append] at hu
      rcases getElem?_concat_eq_some hu with hu | ⟨rfl, rfl⟩
      · exact h.places m u hu
      · simpa [Task.ticket] using ht
  | restage n f => exact h.withTasks fun m u hu => h.places m u (tickets_restage c n f ▸ hu)
  | serve n s services hs => exact h.updateServer hs services

theorem mem_badges_turn (hc : Turn c c') (h : Sound c) {b : Nat × Member} (hb : b ∈ c.badges) :
    b ∈ c'.badges := by
  cases hc with
  | change hc => exact mem_badges_change hc h hb
  | serve n s services hs =>
      exact badges_of_bare (bareSeats_updateServer h hs services)
        (departed_updateServer h hs services) ▸ hb
  | _ => exact hb

theorem tickets_turn (hc : Turn c c') : c.tickets <+: c'.tickets := by
  cases hc with
  | change hc => exact tickets_change hc ▸ List.prefix_refl _
  | enqueue t ht => exact ⟨[t.ticket], by simp [tickets]⟩
  | restage n f => exact tickets_restage c n f ▸ List.prefix_refl _
  | serve n s services hs => exact List.prefix_refl _

theorem config_turn (hc : Turn c c') : c'.config = c.config := by
  cases hc with
  | change hc => exact config_change hc
  | _ => rfl

theorem Sound.after (h : Sound c) (e : Event) : Sound (c.after e) :=
  invariant_of_steps (turns_after c e) Sound.turn h

theorem Sound.afterAll (h : Sound c) (es : List Event) : Sound (c.afterAll es) :=
  invariant_of_steps (turns_afterAll c es) Sound.turn h

theorem config_afterAll (c : Cluster) (es : List Event) : (c.afterAll es).config = c.config :=
  invariant_of_steps (P := fun d => d.config = c.config) (turns_afterAll c es)
    (fun hc h => (config_turn hc).trans h) rfl

theorem tickets_afterAll (c : Cluster) (es : List Event) :
    c.tickets <+: (c.afterAll es).tickets :=
  invariant_of_steps (P := fun d => c.tickets <+: d.tickets) (turns_afterAll c es)
    (fun hc h => h.trans (tickets_turn hc)) (List.prefix_refl _)

theorem mem_badges_afterAll (h : Sound c) {b : Nat × Member} (hb : b ∈ c.badges)
    (es : List Event) : b ∈ (c.afterAll es).badges := by
  have hboth : Sound (c.afterAll es) ∧ b ∈ (c.afterAll es).badges :=
    invariant_of_steps (P := fun d => Sound d ∧ b ∈ d.badges) (turns_afterAll c es)
      (fun hc hd => ⟨hd.1.turn hc, mem_badges_turn hc hd.1 hd.2⟩) ⟨h, hb⟩
  exact hboth.2

end Cluster

end Switchboard
