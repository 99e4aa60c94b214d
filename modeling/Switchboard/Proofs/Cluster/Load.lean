import Switchboard.Proofs.Cluster.Table
import Switchboard.Proofs.Rotation

namespace Switchboard.Cluster

def load (t : Table) (id : MemberId) : Nat := t.count (some id)

def spread (t : Table) (ids : List MemberId) : Nat :=
  ((ids.map (load t)).max?).getD 0 - ((ids.map (load t)).min?).getD 0

def share (ids : List MemberId) (id : MemberId) (k : Nat) : Nat :=
  Nat.count (fun j => turn ids j = some id) k

variable {ids : List MemberId} {t t' : Table} {id a b : MemberId} {d dealt i j p : Nat}

theorem spread_le_iff :
    spread t ids ≤ d ↔ ∀ a ∈ ids, ∀ b ∈ ids, load t a ≤ load t b + d := by
  cases hmax : (ids.map (load t)).max? with
  | none =>
      have hids : ids = [] := by simpa using hmax
      simp [hids, spread]
  | some top =>
      cases hmin : (ids.map (load t)).min? with
      | none =>
          have hids : ids = [] := by simpa using hmin
          simp [hids, spread]
      | some bottom =>
          obtain ⟨htop, hle⟩ := List.max?_eq_some_iff.1 hmax
          obtain ⟨hbottom, hge⟩ := List.min?_eq_some_iff.1 hmin
          simp only [List.mem_map, forall_exists_index, and_imp, forall_apply_eq_imp_iff₂]
            at hle hge
          rw [spread, hmax, hmin, Option.getD_some, Option.getD_some, Nat.sub_le_iff_le_add']
          constructor
          · intro h a ha b hb
            have hbelow := hle a ha
            have habove := hge b hb
            omega
          · intro h
            obtain ⟨a, ha, rfl⟩ := List.mem_map.1 htop
            obtain ⟨b, hb, rfl⟩ := List.mem_map.1 hbottom
            exact h a ha b hb

theorem exists_turn (h : ids ≠ []) (j : Nat) : ∃ id ∈ ids, turn ids j = some id :=
  exists_getElem?_mod h j

theorem share_eq (hids : ids.Nodup) (hi : ids[i]? = some id) (k : Nat) :
    share ids id k = k / ids.length + if i < k % ids.length then 1 else 0 := by
  have hlt : i < ids.length := (List.getElem?_eq_some_iff.1 hi).1
  have hcount := count_getElem?_mod hids hi 0 k
  simp only [Nat.zero_add, Nat.zero_mod, Nat.sub_zero, Nat.add_mod_right, Nat.mod_eq_of_lt hlt]
    at hcount
  exact hcount

theorem share_even (hids : ids.Nodup) (ha : a ∈ ids) (hb : b ∈ ids) (k : Nat) :
    share ids a k ≤ share ids b k + 1 := by
  obtain ⟨i, hi⟩ := List.mem_iff_getElem?.1 ha
  obtain ⟨j, hj⟩ := List.mem_iff_getElem?.1 hb
  rw [share_eq hids hi, share_eq hids hj]
  split <;> split <;> omega

theorem getElem?_deal (ids : List MemberId) (dealt p : Nat) (t : Table) (i : Nat) :
    (deal ids dealt p t).1[i]? =
      (t[i]?).map fun o => o.or (turn ids (dealt + (t.take i).count none)) := by
  induction t generalizing dealt p i with
  | nil => simp [deal]
  | cons o rest ih =>
      cases o with
      | some id =>
          cases i with
          | zero => simp [deal]
          | succ i => simpa [deal] using ih dealt (p + 1) i
      | none =>
          simp only [deal]
          cases hid : ids[dealt % ids.length]? with
          | none =>
              have hids : ids = [] := by
                by_contra hne
                obtain ⟨id, -, hturn⟩ := exists_turn hne dealt
                rw [turn, hid] at hturn
                cases hturn
              subst hids
              cases i with
              | zero => simp [turn]
              | succ i => simpa [turn] using ih dealt (p + 1) i
          | some id =>
              cases i with
              | zero => simp [turn, hid]
              | succ i =>
                  rw [List.getElem?_cons_succ, List.getElem?_cons_succ, List.take_succ_cons,
                    List.count_cons_self, ih, Nat.add_assoc, Nat.add_comm 1]

theorem load_cons (o : Option MemberId) (t : Table) (id : MemberId) :
    load (o :: t) id = load t id + if o = some id then 1 else 0 := by
  simp [load, List.count_cons]

theorem load_deal (hid : id ∈ ids) (dealt p : Nat) (t : Table) :
    load (deal ids dealt p t).1 id + share ids id dealt =
      load t id + share ids id (dealt + t.count none) := by
  induction t generalizing dealt p with
  | nil => simp [deal]
  | cons o rest ih =>
      cases o with
      | some other =>
          have hrest := ih dealt (p + 1)
          have hcount : (some other :: rest).count none = rest.count none := by simp
          rw [deal, load_cons, load_cons, hcount]
          omega
      | none =>
          obtain ⟨other, -, hturn⟩ := exists_turn (List.ne_nil_of_mem hid) dealt
          have hrest := ih (dealt + 1) (p + 1)
          have hstep : share ids id (dealt + 1) =
              share ids id dealt + if some other = some id then 1 else 0 := by
            simp [share, Nat.count_succ, hturn]
          have hcount : dealt + (none :: rest).count none = dealt + 1 + rest.count none := by
            rw [List.count_cons_self]
            omega
          have hdeal : (deal ids dealt p (none :: rest)).1 =
              some other :: (deal ids (dealt + 1) (p + 1) rest).1 := by
            rw [turn] at hturn
            simp [deal, hturn]
          rw [hdeal, hcount, load_cons, load_cons]
          simp only [reduceCtorEq, if_false]
          omega

theorem spread_deal (hids : ids.Nodup) (t : Table) :
    spread (deal ids 0 0 t).1 ids ≤ spread t ids + 1 := by
  refine spread_le_iff.2 fun a ha b hb => ?_
  have hbefore := spread_le_iff.1 (Nat.le_refl (spread t ids)) a ha b hb
  have hshare := share_even hids ha hb (0 + t.count none)
  have hload (id : MemberId) (hid : id ∈ ids) :
      load (deal ids 0 0 t).1 id = load t id + share ids id (0 + t.count none) :=
    load_deal hid 0 0 t
  rw [hload a ha, hload b hb]
  omega

end Switchboard.Cluster
