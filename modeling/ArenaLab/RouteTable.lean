import ArenaLab.RouteInvariant

/-! The route table over a whole life: four dictionaries and the admission
boundary stay consistent, and nothing that was opened or consumed comes back. -/

namespace ArenaLab

def RouteEvent.opening : RouteEvent → Option (String × ℤ)
  | .opened channel port => some (channel, port)
  | _ => none

def RouteEvent.consuming : RouteEvent → Option String
  | .consumed _ channel _ _ => some channel
  | _ => none

def opens (τ : List RouteEvent) : List (String × ℤ) := τ.filterMap RouteEvent.opening

def consumptions (τ : List RouteEvent) : List String := τ.filterMap RouteEvent.consuming

section

variable {s s' : PeerRoutes} {e : RouteEvent} {τ : List RouteEvent}

theorem opens_snoc (τ : List RouteEvent) (e : RouteEvent) :
    opens (τ ++ [e]) = opens τ ++ e.opening.toList := by
  rw [opens, List.filterMap_append]
  cases he : e.opening <;> simp [opens, he]

theorem consumptions_snoc (τ : List RouteEvent) (e : RouteEvent) :
    consumptions (τ ++ [e]) = consumptions τ ++ e.consuming.toList := by
  rw [consumptions, List.filterMap_append]
  cases he : e.consuming <;> simp [consumptions, he]

/-- Nothing is opened or consumed twice, and the tombstones are what was opened. -/
structure RouteHistory (τ : List RouteEvent) (s : PeerRoutes) : Prop where
  channels : ((opens τ).map Prod.fst).Nodup
  ports : ((opens τ).map Prod.snd).Nodup
  used : ∀ c, c ∈ s.used_channels ↔ c ∈ (opens τ).map Prod.fst
  tombs : ∀ p c, s.ports.lookup p = some c ↔ (c, p) ∈ opens τ
  once : (consumptions τ).Nodup
  spent : ∀ c ∈ consumptions τ, c ∈ s.used_channels ∧ ∀ r, s.routes.lookup c = some r → r.peer_id ≠ 0

theorem RouteHistory.quiet (hh : RouteHistory τ s) (hopen : e.opening = none) (hcons : e.consuming = none)
    (hports : s'.ports = s.ports) (hused : s'.used_channels = s.used_channels)
    (hroutes : ∀ c r, s'.routes.lookup c = some r → s.routes.lookup c = some r) :
    RouteHistory (τ ++ [e]) s' := by
  have ho : opens (τ ++ [e]) = opens τ := by rw [opens_snoc, hopen, Option.toList_none, List.append_nil]
  have hc : consumptions (τ ++ [e]) = consumptions τ := by
    rw [consumptions_snoc, hcons, Option.toList_none, List.append_nil]
  refine ⟨ho ▸ hh.channels, ho ▸ hh.ports, ?_, ?_, hc ▸ hh.once, ?_⟩
  · rw [ho, hused]
    exact hh.used
  · rw [ho, hports]
    exact hh.tombs
  · rw [hc, hused]
    intro c hmem
    exact ⟨(hh.spent c hmem).1, fun r hr => (hh.spent c hmem).2 r (hroutes c r hr)⟩

theorem RouteHistory.step (hh : RouteHistory τ s) (hi : RouteInv s) (hs : RouteStep s e s') :
    RouteHistory (τ ++ [e]) s' := by
  cases routeStep_change hs with
  | @opened body channel port hclosed hroutes hports hchannel hport hname hattestor hfresh hfree =>
    have ho : opens (τ ++ [.opened channel port]) = opens τ ++ [(channel, port)] := opens_snoc τ _
    have hc : consumptions (τ ++ [.opened channel port]) = consumptions τ := by
      rw [consumptions_snoc]
      exact List.append_nil _
    constructor
    · rw [ho, List.map_append, List.nodup_append]
      refine ⟨hh.channels, by simp, ?_⟩
      intro c hmem c' hc' he
      rw [he, show c' = channel by simpa using hc'] at hmem
      exact hfresh ((hh.used channel).mpr hmem)
    · rw [ho, List.map_append, List.nodup_append]
      refine ⟨hh.ports, by simp, ?_⟩
      intro p hmem p' hp' he
      rw [he, show p' = port by simpa using hp'] at hmem
      obtain ⟨⟨c, p⟩, hcp, rfl⟩ := List.mem_map.mp hmem
      exact hfree (AList.mem_of_lookup ((hh.tombs p c).mpr hcp))
    · intro c
      rw [ho, List.map_append, List.mem_append]
      show c ∈ s.used_channels.insert channel true ↔ _
      rw [AList.mem_insert, hh.used, or_comm]
      simp
    · intro p c
      rw [ho, List.mem_append, ← hh.tombs]
      show (s.ports.insert port channel).lookup p = some c ↔ _
      by_cases he : p = port
      · subst he
        rw [AList.lookup_insert, AList.lookup_eq_none.mpr hfree]
        simp [eq_comm]
      · rw [AList.lookup_insert_ne he]
        simp [he]
    · rw [hc]
      exact hh.once
    · rw [hc]
      intro c hmem
      obtain ⟨hused, hspent⟩ := hh.spent c hmem
      refine ⟨(AList.mem_insert _).mpr (.inr hused), ?_⟩
      intro r hr
      change (s.routes.insert channel ⟨body, 0⟩).lookup c = some r at hr
      rw [AList.lookup_insert_ne] at hr
      · exact hspent r hr
      · rintro rfl
        exact hfresh hused
  | refused => exact hh.quiet rfl rfl rfl rfl (fun _ _ hr => hr)
  | @consumed id port now channel route hserial hclosed hid hnew hchannel hroute hunused =>
    have ho : opens (τ ++ [.consumed id channel (route.body.get "attestor")
        (s.admission.connected id now).2]) = opens τ := by
      rw [opens_snoc]
      exact List.append_nil _
    have hc : consumptions (τ ++ [.consumed id channel (route.body.get "attestor")
        (s.admission.connected id now).2]) = consumptions τ ++ [channel] := consumptions_snoc τ _
    refine ⟨ho ▸ hh.channels, ho ▸ hh.ports, ho ▸ hh.used, ho ▸ hh.tombs, ?_, ?_⟩
    · rw [hc, List.nodup_append]
      refine ⟨hh.once, by simp, ?_⟩
      intro c hmem c' hc' he
      obtain rfl := List.mem_singleton.mp hc'
      rw [he] at hmem
      exact (hh.spent c' hmem).2 route hroute hunused
    · rw [hc]
      intro c hmem
      show c ∈ s.used_channels ∧
        ∀ r, (s.routes.insert channel { route with peer_id := id }).lookup c = some r → r.peer_id ≠ 0
      by_cases he : c = channel
      · subst he
        refine ⟨(hi.endpoint c route hroute).1, ?_⟩
        intro r hr
        rw [AList.lookup_insert] at hr
        rw [← Option.some.inj hr]
        show id ≠ 0
        omega
      · rw [AList.lookup_insert_ne he]
        rcases List.mem_append.mp hmem with hmem | hmem
        · exact hh.spent c hmem
        · exact absurd (List.mem_singleton.mp hmem) he
  | retired channel =>
    obtain ⟨hports, hused, _⟩ := retire_tombs s channel
    refine hh.quiet rfl rfl hports hused ?_
    intro c r hr
    rw [retire_lookup] at hr
    split at hr
    · cases hr
    · exact hr
  | closed he =>
    obtain ⟨_, ⟨hports, hused, _⟩, hnone⟩ := hi.close
    refine hh.quiet ?_ ?_ hports hused ?_
    · rcases he with rfl | rfl <;> rfl
    · rcases he with rfl | rfl <;> rfl
    · intro c r hr
      rw [hnone] at hr
      cases hr

end

end ArenaLab
