import Switchboard.Dispatch.Flight

namespace Switchboard

variable {i : Invocation} {w : World} {e : DispatchError} {call : Call} {target : Option Member}

namespace Invocation

inductive Prepares (i : Invocation) (w : World) :
    Except DispatchError (Call × Option Member) × World → Prop
  | keyed {spec : KeySpec} {k : PartitionKey} {ran : List Consulted} :
      i.route.target = .partitioned spec → spec.resolve i.qualified i.args = (.ok k, ran) →
      Prepares i w (.ok ({ i.call with key := some k }, none),
        { w with consulted := w.consulted + ran.length })
  | keyless {spec : KeySpec} {x : CallerError} {ran : List Consulted} :
      i.route.target = .partitioned spec → spec.resolve i.qualified i.args = (.error x, ran) →
      Prepares i w (.error (.caller x), { w with consulted := w.consulted + ran.length })
  | targeted {p : RoutingPolicy} {m : Member} {cursor : Cursor} :
      i.route.target = .balanced p →
      p.choose w.alive i.call (w.cursors.get i.policy) = (.ok m, cursor) →
      Prepares i w (.ok (i.call, some m), { w with cursors := w.cursors.set i.policy cursor })
  | targetless {p : RoutingPolicy} {x : PolicyError} {cursor : Cursor} :
      i.route.target = .balanced p →
      p.choose w.alive i.call (w.cursors.get i.policy) = (.error x, cursor) →
      Prepares i w (.error (.noTarget i.qualified x),
        { w with cursors := w.cursors.set i.policy cursor })

theorem prepares (i : Invocation) (w : World) : i.Prepares w (i.prepare w) := by
  unfold prepare
  split
  · next spec htarget =>
      simp only
      split
      · next k hkey => exact .keyed htarget (Prod.ext hkey rfl)
      · next x hkey => exact .keyless htarget (Prod.ext hkey rfl)
  · next p htarget =>
      simp only
      split
      · next m hchoice => exact .targeted htarget (Prod.ext hchoice rfl)
      · next x hchoice => exact .targetless htarget (Prod.ext hchoice rfl)

theorem prepare_error (h : (i.prepare w).1 = .error e) :
    (∃ x, e = .caller x) ∨ ∃ x, e = .noTarget i.qualified x := by
  have hprep := i.prepares w
  generalize i.prepare w = out at h hprep
  cases hprep with
  | keyless _ _ =>
      cases h
      exact Or.inl ⟨_, rfl⟩
  | targetless _ _ =>
      cases h
      exact Or.inr ⟨_, rfl⟩
  | _ => cases h

theorem qualified_of_prepare (h : (i.prepare w).1 = .ok (call, target)) :
    call.qualified = i.call.qualified := by
  have hprep := i.prepares w
  generalize i.prepare w = out at h hprep
  cases hprep <;> cases h <;> rfl

end Invocation

theorem Flight.prepare_frame (i : Invocation) (w : World) :
    ∃ cursors consulted,
      (i.prepare w).2 = { w with cursors := cursors, consulted := consulted } := by
  have h := i.prepares w
  generalize i.prepare w = out at h
  cases h <;> exact ⟨_, _, rfl⟩

end Switchboard
