import Switchboard.Proofs.Dispatch.Client
import Switchboard.Proofs.Session.Course

namespace Switchboard

/-- What a new provider `p` has become by requests of which no two drew the same number, up to the
number `issued`. -/
structure Provider.Drawn (issued : Nat) (p : Provider) (rs : List Provider.Request)
    (q : Provider) : Prop where
  created : ∃ config types policies hasher, Provider.create config types policies hasher = .ok p
  asked : q = p.afterAll rs
  distinct : (rs.map Provider.Request.id).Nodup
  below : ∀ r ∈ rs, r.id ≤ issued

namespace Provider.Drawn

variable {n : Nat} {p q : Provider} {rs : List Provider.Request} {r : Provider.Request}

theorem proxies_nil (h : Drawn n p rs q) : p.proxies = [] := by
  obtain ⟨_, _, _, _, hnew⟩ := h.created
  exact Provider.create_proxies hnew

theorem number (h : Drawn n p rs q) : Drawn (n + 1) p rs q where
  created := h.created
  asked := h.asked
  distinct := h.distinct
  below r hr := Nat.le_succ_of_le (h.below r hr)

theorem ask (h : Drawn n p rs q) (hid : r.id = n + 1) : Drawn (n + 1) p (rs ++ [r]) (q.after r) where
  created := h.created
  asked := by rw [h.asked, Provider.afterAll_concat]
  distinct := by
    have hnew : r.id ∉ rs.map Provider.Request.id := by
      intro hmem
      obtain ⟨old, hold, heq⟩ := List.mem_map.1 hmem
      have hle := h.below old hold
      omega
    simpa [List.nodup_append, h.distinct] using hnew
  below s hs := by
    rcases List.mem_append.1 hs with hs | hs
    · exact Nat.le_succ_of_le (h.below s hs)
    · exact List.mem_singleton.1 hs ▸ hid.le

end Provider.Drawn

namespace Desk

def Drawn (d : Desk) : Prop := ∀ e ∈ d.providers, ∃ p rs, Provider.Drawn d.issued p rs e.2

variable {d d' : Desk} {xs : List Proxy} {q : Provider} {name : String}

theorem Drawn.file (h : d.Drawn) (hq : ∃ p rs, Provider.Drawn d.issued p rs q) :
    (d.file name q).Drawn := by
  intro e he
  rcases Keyed.mem_insert he with rfl | he
  · exact hq
  · exact h e he

theorem Drawn.number (h : d.Drawn) : d.number.Drawn := by
  intro e he
  obtain ⟨p, rs, hdrawn⟩ := h e he
  exact ⟨p, rs, hdrawn.number⟩

theorem Drawn.ask (h : d.Drawn) (hq : Keyed.find? name d.providers = some q)
    {r : Provider.Request} (hid : r.id = d.issued + 1) :
    (d.number.file name (q.after r)).Drawn := by
  obtain ⟨p, rs, hdrawn⟩ := h _ (Keyed.mem_of_find? hq)
  exact h.number.file ⟨p, rs ++ [r], hdrawn.ask hid⟩

theorem Drawn.move (h : d.Drawn) (hm : d.Move xs d') : d'.Drawn := by
  cases hm with
  | number => exact h.number
  | create hnew => exact h.file ⟨_, [], ⟨_, _, _, _, hnew⟩, rfl, .nil, by simp⟩
  | refuse hq hid _ => exact h.ask hq hid
  | hand hq hid _ => exact h.ask hq hid

theorem Drawn.course (h : d.Drawn) (hc : d.Course xs d') : d'.Drawn := by
  induction hc with
  | refl => exact h
  | move _ hm ih => exact ih.move hm

end Desk

namespace Session

variable {substrate : Substrate} {types : TypeRegistry} {policies : PolicyRegistry}
  {site : CallSite} {hasher : Hasher} {steps : List Step} {name : String} {q : Provider}

theorem drawn_run (h : Keyed.find? name
      ((start substrate types policies site hasher).runSteps steps).2.providers = some q) :
    ∃ issued p rs, Provider.Drawn issued p rs q := by
  obtain ⟨_, hcourse, -⟩ := comes_runSteps (start substrate types policies site hasher) steps
  have hstart : (start substrate types policies site hasher).desk.Drawn := by
    intro e he
    cases he
  exact ⟨_, hstart.course hcourse _ (Keyed.mem_of_find? h)⟩

theorem ids_nodup_run (h : Keyed.find? name
      ((start substrate types policies site hasher).runSteps steps).2.providers = some q) :
    (q.proxies.map (·.2.id)).Nodup := by
  obtain ⟨_, p, rs, hdrawn⟩ := drawn_run h
  rw [hdrawn.asked]
  exact Provider.ids_nodup hdrawn.proxies_nil hdrawn.distinct

/-- Whatever calls stand between the requests that a session has made of a provider, the attempts of
each method in turn go by the views that they find. -/
theorem targets_run (h : Keyed.find? name
      ((start substrate types policies site hasher).runSteps steps).2.providers = some q) :
    ∃ p rs, q = p.afterAll rs ∧ ∀ (s : Substrate) (acts : List Client.Act),
      Client.requests acts = rs → ∀ (m : Endpoint) (x : Proxy) (r : Route),
      Keyed.find? m.interface q.proxies = some x → x.table.route? m.signature = some r →
      r.target = .balanced .roundRobin →
      ((Client.start p s).attempts m acts).map Attempt.target =
        turns 0 (((Client.start p s).attempts m acts).map Attempt.view) := by
  obtain ⟨_, p, rs, hdrawn⟩ := drawn_run h
  refine ⟨p, rs, hdrawn.asked, ?_⟩
  rintro s acts rfl m x r hx hr htarget
  have hsettled := Client.settled_afterAll hdrawn.proxies_nil hdrawn.distinct
  rw [hdrawn.asked] at hx
  exact Client.targets_eq_turns hsettled hx hr htarget (Client.provider_afterAll ..)
    (Client.bound_start ..)

end Session

end Switchboard
