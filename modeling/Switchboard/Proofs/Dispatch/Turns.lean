import Switchboard.Proofs.Dispatch.Movement

namespace Switchboard

variable {i : Invocation} {w w' : World} {view : List Member} {j : PolicyInstance} {n place : Nat}

def populated (view : List Member) : Bool := !(dataMembers view).isEmpty

def memberAt? (view : List Member) (n : Nat) : Option Member :=
  (dataMembers view)[n % (dataMembers view).length]?

def turned (view : List Member) (k : Cursor) : Cursor := if populated view then k + 1 else k

def turns : Cursor → List (List Member) → List (Option Member)
  | _, [] => []
  | k, view :: views => memberAt? view k.toNat :: turns (turned view k) views

theorem length_turns (k : Cursor) (views : List (List Member)) :
    (turns k views).length = views.length := by
  induction views generalizing k with
  | nil => rfl
  | cons view views ih => rw [turns, List.length_cons, ih, List.length_cons]

theorem RoutingPolicy.choose_roundRobin (view : List Member) (call : Call) (k : Cursor) :
    roundRobin.choose view call k =
      match memberAt? view k.toNat with
      | some m => (.ok m, k + 1)
      | none => (.error (.noMembers roundRobin.name), k) := rfl

theorem memberAt?_of_unpopulated (h : populated view = false) (n : Nat) :
    memberAt? view n = none := by
  have hnil : dataMembers view = [] := by simpa [populated] using h
  simp [memberAt?, hnil]

theorem memberAt?_of_populated (h : populated view = true) (n : Nat) :
    ∃ m, memberAt? view n = some m := by
  have hne : dataMembers view ≠ [] := by simpa [populated] using h
  have hlt : n % (dataMembers view).length < (dataMembers view).length :=
    Nat.mod_lt _ (List.length_pos_iff.2 hne)
  exact ⟨_, List.getElem?_eq_getElem hlt⟩

theorem turns_append (k : Cursor) (views views' : List (List Member)) :
    turns k (views ++ views') =
      turns k views ++ turns (k + UInt64.ofNat (views.countP populated)) views' := by
  induction views generalizing k with
  | nil => simp [turns]
  | cons view views ih =>
      rw [List.cons_append, turns, turns, ih, List.cons_append, List.countP_cons]
      cases hs : populated view with
      | false => simp [turned, hs]
      | true =>
          have hplace : k + 1 + UInt64.ofNat (views.countP populated) =
              k + UInt64.ofNat (views.countP populated + 1) := by
            rw [UInt64.ofNat_add, UInt64.add_assoc, UInt64.add_comm 1]
            rfl
          simp [turned, hs, hplace]

namespace Invocation

theorem cursor_prepare_of_ne (h : j ≠ i.policy) :
    (i.prepare w).2.cursors.get j = w.cursors.get j := by
  have hprep := i.prepares w
  generalize i.prepare w = out at hprep
  cases hprep with
  | keyed _ _ | keyless _ _ => rfl
  | targeted _ _ | targetless _ _ => exact Cursors.get_set_of_ne h ..

theorem prepare_in_turn (h : i.route.target = .balanced .roundRobin) (w : World) :
    (i.prepare w).2.cursors.get i.policy = turned w.alive (w.cursors.get i.policy) ∧
      match memberAt? w.alive (w.cursors.get i.policy).toNat with
      | some m => (i.prepare w).1 = .ok (i.call, some m)
      | none => ∃ e, (i.prepare w).1 = .error e := by
  cases hs : populated w.alive with
  | true =>
      obtain ⟨m, hm⟩ := memberAt?_of_populated hs (w.cursors.get i.policy).toNat
      simp [prepare, h, RoutingPolicy.choose_roundRobin, hm, turned, hs, Cursors.get_set_self]
  | false =>
      have hm := memberAt?_of_unpopulated hs (w.cursors.get i.policy).toNat
      simp [prepare, h, RoutingPolicy.choose_roundRobin, hm, turned, hs, Cursors.get_set_self]

end Invocation

namespace World

theorem cursors_mapCluster (w : World) (g : Cluster → Cluster) :
    (w.mapCluster g).cursors = w.cursors := by
  unfold mapCluster
  split <;> rfl

theorem cursors_interrupt (w : World) (p : Pending) : (w.interrupt p).2.cursors = w.cursors := by
  unfold interrupt
  split
  · next h _ =>
      cases h with
      | count => rfl
      | abort n => exact cursors_mapCluster ..
  · rfl

end World

namespace Flight

variable {ph ph' : Phase}

theorem cursors_attempt (i : Invocation) (n : Nat) (w : World) :
    (attempt i n w).2.cursors = (i.prepare w).2.cursors := by
  unfold attempt
  split
  · next e w' hp => rw [hp]
  · next call target w' hp => simp [hp, World.submit]

theorem submissions_attempt (h : i.route.target = .balanced .roundRobin) (n : Nat) (w : World) :
    (attempt i n w).2.submissions =
      w.submissions ++ ((memberAt? w.alive (w.cursors.get i.policy).toNat).map fun m =>
        ⟨i.call, some m⟩).toList := by
  obtain ⟨cursors, consulted, hframe⟩ := prepare_frame i w
  have hturn := (Invocation.prepare_in_turn h w).2
  cases hm : memberAt? w.alive (w.cursors.get i.policy).toNat with
  | none =>
      obtain ⟨e, he⟩ : ∃ e, (i.prepare w).1 = .error e := by simpa [hm] using hturn
      have hprepare : i.prepare w = (.error e, (i.prepare w).2) := Prod.ext he rfl
      rw [attempt, hprepare, hframe]
      simp
  | some m =>
      have he : (i.prepare w).1 = .ok (i.call, some m) := by simpa [hm] using hturn
      have hprepare : i.prepare w = (.ok (i.call, some m), (i.prepare w).2) := Prod.ext he rfl
      rw [attempt, hprepare, hframe]
      simp [World.submit]

theorem cursors_step (h : step i w ph = some (ph', w')) (hph : ∀ n, ph ≠ .preparing n) :
    w'.cursors = w.cursors := by
  cases ph with
  | preparing n => exact absurd rfl (hph n)
  | waiting n p deadline =>
      simp only [step] at h
      split at h
      · cases h
        rfl
      split at h
      · have hexpire : expire i p w = (ph', w') := Option.some.inj h
        obtain rfl : (expire i p w).2 = w' := congrArg Prod.snd hexpire
        simp only [expire]
        split
        · exact World.cursors_interrupt w p
        · rfl
      · cases h
  | resting n wake =>
      simp only [step] at h
      split at h
      · cases h
        rfl
      · cases h
  | settled r tick => cases h

theorem drive_preparing {f : Flight} (h : f.phase = .preparing n) (w : World) :
    (f.drive 1 w).2 = (attempt f.invocation n w).2 := by
  have hstep : step f.invocation w (follow w.now f.phase) = some (attempt f.invocation n w) := by
    rw [h]
    rfl
  rw [drive_of_some hstep 0]
  rfl

theorem cursors_drive {f : Flight} (h : ∀ n, f.phase ≠ .preparing n) (w : World) :
    (f.drive 1 w).2.cursors = w.cursors := by
  have hfollow : ∀ n, follow w.now f.phase ≠ .preparing n := by
    intro n
    cases hph : f.phase with
    | preparing k => exact absurd hph (h k)
    | _ => simp [follow]
  rcases drive_one w f with ⟨-, hone⟩ | ⟨ph, w', hstep, hone⟩
  · rw [hone]
  · rw [hone]
    exact cursors_step hstep hfollow

theorem cursor_drive_of_ne {f : Flight} (h : j ≠ f.invocation.policy) (w : World) :
    (f.drive 1 w).2.cursors.get j = w.cursors.get j := by
  cases hph : f.phase with
  | preparing n => rw [drive_preparing hph, cursors_attempt, Invocation.cursor_prepare_of_ne h]
  | _ => rw [cursors_drive (by simp [hph])]

end Flight

structure Attempt where
  view : List Member
  target : Option Member

theorem target_of_turns {before after : List Attempt} {a : Attempt}
    (h : (before ++ a :: after).map Attempt.target =
      turns 0 ((before ++ a :: after).map Attempt.view))
    (hc : before.countP (fun b => populated b.view) < 2 ^ 64) :
    a.target = memberAt? a.view (before.countP fun b => populated b.view) := by
  rw [List.map_append, List.map_append, turns_append] at h
  have hrest := List.append_inj_right h (by simp [length_turns])
  rw [List.map_cons, List.map_cons, turns, List.cons.injEq, List.countP_map, UInt64.zero_add,
    UInt64.toNat_ofNat'] at hrest
  exact hrest.1.trans (congrArg (memberAt? a.view) (Nat.mod_eq_of_lt hc))

namespace Traffic

variable {t : Traffic} {f : Flight} {e : Event}

def attempt? (t : Traffic) (place : Nat) : Option Attempt :=
  match t.flights[place]? with
  | some ⟨_, .preparing _⟩ =>
      some ⟨t.world.alive, (t.submits place (.step place)).head?.bind Submission.target⟩
  | _ => none

theorem world_step (hf : t.flights[place]? = some f) :
    (t.after (.step place)).world = (f.drive 1 t.world).2 := by
  rw [after_step hf]

theorem attempt?_in_turn (hf : t.flights[place]? = some f)
    (h : f.invocation.route.target = .balanced .roundRobin) {a : Attempt}
    (ha : t.attempt? place = some a) :
    a.target = memberAt? a.view (t.world.cursors.get f.invocation.policy).toNat ∧
      (t.after (.step place)).world.cursors.get f.invocation.policy =
        turned a.view (t.world.cursors.get f.invocation.policy) := by
  obtain ⟨i, ph⟩ := f
  cases ph with
  | preparing n =>
      simp only [attempt?, hf, Option.some.injEq] at ha
      subst ha
      have hworld := world_step hf
      rw [Flight.drive_preparing rfl] at hworld
      constructor
      · simp only [submits, if_true, hworld, Flight.submissions_attempt h, List.drop_left]
        cases memberAt? t.world.alive (t.world.cursors.get i.policy).toNat <;> rfl
      · rw [hworld, Flight.cursors_attempt]
        exact (Invocation.prepare_in_turn h t.world).1
  | _ => simp [attempt?, hf] at ha

theorem cursors_of_no_attempt (hf : t.flights[place]? = some f) (ha : t.attempt? place = none) :
    (t.after (.step place)).world.cursors = t.world.cursors := by
  rw [world_step hf]
  apply Flight.cursors_drive
  intro n hn
  obtain ⟨i, ph⟩ := f
  cases hn
  simp [attempt?, hf] at ha

theorem cursor_of_other (hf : t.flights[place]? = some f) (h : j ≠ f.invocation.policy) :
    (t.after (.step place)).world.cursors.get j = t.world.cursors.get j := by
  rw [world_step hf]
  exact Flight.cursor_drive_of_ne h t.world

end Traffic

end Switchboard
