import TorJet.Pool.Refill
import TorJet.Pool.Single

/-!
# Where circuits were launched to, and which legs a nonce has

A step leaves both as they are, but for the circuit that a launch adds.
-/

namespace TorJet.Pool
open Smartlist Base

section Legs
variable {p : Params} {d d' : Pools} {stack stack' frames : List Frame} {c : CircId} {n : Nonce} {e : Event} {full : Bool}

def Circ.origin (y : Circ) : Option Nonce × Option Path := (y.launchedFor, y.path)

theorem modifyCirc_origin {f : Circ → Circ} (same : ∀ y, (f y).origin = y.origin) (a : CircId) :
    ((d.modifyCirc c f).circs a).origin = (d.circs a).origin := by
  by_cases here : a = c <;> simp [Pools.modifyCirc, here, same]

theorem Closes.origin (closes : Closes d c full d' frames) (a : CircId) : (d'.circs a).origin = (d.circs a).origin :=
  closes.field Circ.origin (fun _ => rfl) (fun _ => rfl) a

theorem Frees.origin (frees : Frees d c d') (a : CircId) : (d'.circs a).origin = (d.circs a).origin := by
  have forgot (e : Pools) (same : e.circs = d.circs) : ((e.forget c).circs a).origin = (d.circs a).origin := by
    rw [← same, Pools.forget]
    apply modifyCirc_origin
    intro y
    rfl
  cases frees with
  | plain | leg | last | pass => exact forgot _ rfl

theorem Frees.marked (frees : Frees d c d') (a : CircId) : (d'.circs a).marked = (d.circs a).marked := by
  have forgot (e : Pools) (same : e.circs = d.circs) : ((e.forget c).circs a).marked = (d.circs a).marked := by
    rw [← same]
    by_cases here : a = c <;> simp [Pools.forget, Pools.modifyCirc, here]
  cases frees with
  | plain | leg | last | pass => exact forgot _ rfl

theorem Frees.legs (frees : Frees d c d') (owned : Owned d) {id : CfxId} {y : Cfx} {a : CircId}
    (live : d'.cfxs id = some y) (mem : a ∈ y.legs) : ∃ z, d.cfxs id = some z ∧ z.nonce = y.nonce ∧ a ∈ z.legs := by
  have updated {i : CfxId} {x x' : Cfx} {full : Bool} (was : d.cfxs i = some x)
      (legs : x'.legs = (Pools.cfxDelLeg x c full).1.legs) (nonce : x'.nonce = x.nonce)
      (live : Function.update d.cfxs i (some x') id = some y) : ∃ z, d.cfxs id = some z ∧ z.nonce = y.nonce ∧ a ∈ z.legs := by
    rcases updated_cfx live with ⟨rfl, rfl⟩ | ⟨-, old⟩
    · refine ⟨x, was, nonce.symm, ?_⟩
      rw [legs] at mem
      exact (((cfxDelLeg_legs (owned.legs id x was).1 c full).2 a).mp mem).1
    · exact ⟨y, old, rfl, mem⟩
  cases frees with
  | plain => exact ⟨y, live, rfl, mem⟩
  | leg _ was legs _ nonce => exact updated was legs nonce live
  | last =>
      simp only [Pools.forget, Pools.modifyCirc, Pools.setCfx, Pools.setLinked, Function.update_apply] at live
      split at live
      · cases live
      · exact ⟨y, live, rfl, mem⟩
  | pass _ was legs _ nonce => exact updated was legs nonce live

theorem Move.origin (move : Move p d stack e d' stack') (a : CircId) :
    (d'.circs a).origin = (d.circs a).origin ∨
      ∃ n path, stack.head? = some (.launchLeg n) ∧ e = .build a path ∧ a ∉ d.global ∧ (d'.circs a).origin = (some n, path) := by
  cases move with
  | launchSet | add | close | closeSet | answer | flags | skip | markAll | spare | teardown | settle | refill | oom |
    buildFails | built | forget | register => exact .inl rfl
  | repurpose isOpen closes => exact .inl (closes.origin a)
  | mark alive closes =>
      left
      rw [closes.origin a, Pools.mark]
      apply modifyCirc_origin
      intro y
      rfl
  | finalize =>
      left
      simp only [Pools.finalizeSet]
      split <;> rfl
  | free marked frees => exact .inl (frees.origin a)
  | deleteEmpty => exact .inl (by rw [deleteSet_circs])
  | @rebuild b n _ _ id x _ unlinked holds isLive rebuilt =>
      obtain ⟨circs, -, -, -⟩ := getOrCreate_frame d n
      left
      rcases rebuild_inv rebuilt with ⟨u, -, -, rfl⟩ | ⟨d₁, u, created, -, rfl⟩
      · apply modifyCirc_origin
        intro y
        rfl
      · simp only [created] at circs
        rw [← circs]
        apply modifyCirc_origin
        intro y
        rfl
  | @refuse n _ _ _ _ u x unborn created =>
      obtain ⟨circs, -, -, -⟩ := getOrCreate_frame d n
      simp only [created] at circs
      exact .inl (by rw [circs])
  | @launch n b path rest frames d₁ u x _ unborn created =>
      obtain ⟨circs, -, -, -⟩ := getOrCreate_frame d n
      simp only [created] at circs
      by_cases here : a = b
      · subst here
        refine .inr ⟨n, path, rfl, rfl, unborn, ?_⟩
        simp [Pools.newCircuit, Circ.origin]
      · left
        simp only [Pools.newCircuit, Function.update_of_ne here]
        rw [← circs]
  | setPurpose =>
      left
      apply modifyCirc_origin
      intro y
      rfl


def IsLeg (d : Pools) (stack : List Frame) (n : Nonce) (a : CircId) : Prop :=
  (∃ id x, d.cfxs id = some x ∧ x.nonce = n ∧ a ∈ x.legs) ∨ (∃ u, d.unlinked n = some u ∧ a ∈ u.circs) ∨
    ∃ set, InFlight stack n set a

theorem IsLeg.mono {a : CircId} (leg : IsLeg d' stack' n a)
    (linked : ∀ id x, d'.cfxs id = some x → a ∈ x.legs → IsLeg d stack x.nonce a)
    (unlinked : ∀ u, d'.unlinked n = some u → a ∈ u.circs → IsLeg d stack n a)
    (flying : ∀ set, InFlight stack' n set a → IsLeg d stack n a) : IsLeg d stack n a := by
  rcases leg with ⟨id, x, live, rfl, mem⟩ | ⟨u, found, mem⟩ | ⟨set, flies⟩
  · exact linked id x live mem
  · exact unlinked u found mem
  · exact flying set flies

theorem IsLeg.linked {a : CircId} {id : CfxId} {x : Cfx} (live : d.cfxs id = some x) (mem : a ∈ x.legs) :
    IsLeg d stack x.nonce a := .inl ⟨id, x, live, rfl, mem⟩

theorem IsLeg.unlinked {a : CircId} {u : Unlinked} (found : d.unlinked n = some u) (mem : a ∈ u.circs) :
    IsLeg d stack n a := .inr (.inl ⟨u, found, mem⟩)

theorem IsLeg.flying {a : CircId} {set : Nat} (flies : InFlight stack n set a) : IsLeg d stack n a := .inr (.inr ⟨set, flies⟩)

theorem IsLeg.restack {a : CircId} (leg : IsLeg d stack' n a) (flying : ∀ set, InFlight stack' n set a → InFlight stack n set a) :
    IsLeg d stack n a :=
  leg.mono (fun _ _ => .linked) (fun _ => .unlinked) fun set flies => .flying (flying set flies)

theorem getOrCreate_isLeg {a : CircId} {m : Nonce} (leg : IsLeg (d.unlinkedGetOrCreate n).1 stack m a) : IsLeg d stack m a := by
  refine leg.mono (fun i y live mem => ?_) (fun v found mem => ?_) fun set flies => .flying flies
  · rcases getOrCreate_objects d n i y live with was | ⟨-, -, -, rfl⟩
    · exact .linked was mem
    · cases mem
  · rcases getOrCreate_sets d n m v found with ⟨empty, -⟩ | was
    · rw [empty] at mem
      cases mem
    · exact .unlinked was mem

theorem newCircuit_isLeg {a : CircId} {m : Nonce} {u : Unlinked} {x : Cfx} {path : Option Path} (live : d.cfxs u.cfx = some x)
    (leg : IsLeg (d.newCircuit c n u.cfx x path) stack m a) : IsLeg d stack m a := by
  refine leg.mono (fun i y isLive mem => ?_) (fun v found mem => .unlinked found mem) fun set flies => .flying flies
  rcases updated_cfx isLive with ⟨rfl, rfl⟩ | ⟨-, was⟩
  · exact .inl ⟨_, x, live, rfl, mem⟩
  · exact .linked was mem

theorem Closes.isLeg {d₀ : Pools} {rest : List Frame} {a : CircId} {m : Nonce} (closes : Closes d₀ c full d' frames)
    (neat : Neat d₀) (leg : IsLeg d' (frames ++ rest) m a) : IsLeg d₀ rest m a := by
  refine leg.mono (fun i y live mem => ?_) (fun v found mem => ?_) fun set flies => ?_
  · obtain ⟨-, z, was, isLeg⟩ := closes.legs neat live mem
    obtain ⟨w, isLive, nonce, -⟩ := closes.objects i y live
    obtain rfl := Option.some.inj (was.symm.trans isLive)
    exact nonce ▸ .linked was isLeg
  · obtain ⟨-, -, inSet⟩ := closes.waits neat m v found
    obtain ⟨-, w, was, isLeg⟩ := inSet a mem
    exact .unlinked was isLeg
  · have old : InFlight rest m set a := by
      refine flies.imp ?_ ?_ <;> intro mem
      · exact (List.mem_append.mp mem).resolve_left fun new => closes.not_inFlight m set a (.inl new)
      · exact (List.mem_append.mp mem).resolve_left fun new => closes.not_inFlight m set a (.inr new)
    exact .flying old

theorem Frees.isLeg {a : CircId} (frees : Frees d c d') (owned : Owned d) (leg : IsLeg d' stack n a) : IsLeg d stack n a := by
  refine leg.mono (fun i y live mem => ?_) (fun v found mem => ?_) fun _ flies => .flying flies
  · obtain ⟨z, was, nonce, isLeg⟩ := frees.legs owned live mem
    exact nonce ▸ .linked was isLeg
  · obtain ⟨w, was, same⟩ := frees.shrinks.unlinked n v found
    exact .unlinked was (by rw [Unlinked.circs, same]; exact mem)

theorem Move.isLeg {a : CircId} {m : Nonce} (move : Move p d stack e d' stack') (sound : Sound d stack)
    (leg : IsLeg d' stack' m a) :
    IsLeg d stack m a ∨
      ∃ path, stack.head? = some (.launchLeg m) ∧ e = .build a path ∧ a ∉ d.global ∧ (d'.circs a).path = path := by
  have later {f : Frame} {rest : List Frame} (split : stack = f :: rest) {m : Nonce} {set : Nat} {a : CircId}
      (flies : InFlight rest m set a) : InFlight stack m set a := by
    rw [split]
    exact flies.imp (.tail _) (.tail _)
  have idle (pre : List Frame) (plain : ∀ f ∈ pre, f.circuit = none) {rest : List Frame} {m : Nonce} {set : Nat} {a : CircId}
      (flies : InFlight (pre ++ rest) m set a) : InFlight rest m set a := by
    refine flies.imp (fun mem => ?_) fun mem => ?_
    · exact (List.mem_append.mp mem).resolve_left fun new => by cases plain _ new
    · exact (List.mem_append.mp mem).resolve_left fun new => by cases plain _ new
  cases id move with
  | launchSet | add | close | closeSet => exact .inl (leg.restack fun set flies => by simp [InFlight] at flies)
  | repurpose isOpen closes =>
      left
      exact (closes.isLeg sound.neat leg).restack fun set flies => by simp [InFlight] at flies
  | @answer c _ _ n u frames pending found next =>
      left
      refine leg.mono (fun i y live mem => .inl ⟨i, y, live, rfl, mem⟩) (fun v isFound mem => ?_) fun set flies => ?_
      · simp only [Pools.setUnlinked, Function.update_apply] at isFound
        split at isFound
        · rename_i here
          obtain rfl := Option.some.inj isFound
          rw [answer_circs] at mem
          exact here ▸ .unlinked found mem
        · exact .unlinked isFound mem
      · rcases next with rfl | rfl <;> simp [InFlight] at flies
  | @finalize c _ _ n u x pending found isLeg live =>
      left
      obtain ⟨y, isLive, nonce, -⟩ := sound.neat.owned.unlinked n u found
      obtain rfl : y = x := Option.some.inj (isLive.symm.trans live)
      refine leg.mono (fun i z wasLive mem => ?_) (fun v isFound mem => ?_) fun _ flies => .flying flies
      · rcases updated_cfx wasLive with ⟨-, rfl⟩ | ⟨-, was⟩
        · rcases List.mem_append.mp mem with old | new
          · exact .inl ⟨_, y, live, rfl, old⟩
          · have perm := (drained_perm (u.answer c).legs).map (·.circ)
            have joins : a ∈ (u.answer c).circs := perm.mem_iff.mp new
            rw [answer_circs] at joins
            exact nonce ▸ .unlinked found joins
        · exact .linked was mem
      · simp only [Pools.finalizeSet, Function.update_apply] at isFound
        split at isFound
        · cases isFound
        · exact .unlinked isFound mem
  | free marked frees => exact .inl (frees.isLeg sound.neat.owned leg)
  | flags => exact .inl leg
  | skip | spare | settle | forget | setPurpose => exact .inl (leg.restack fun _ => later rfl)
  | mark alive closes =>
      left
      have old : IsLeg (d.mark _) _ m a := closes.isLeg (modifyCirc_neat sound.neat rfl rfl) leg
      exact old.restack fun _ => later rfl
  | @markAll n full rest =>
      refine .inl (leg.restack fun set flies => ?_)
      have old := idle _ (by simp [Frame.circuit]) flies
      simpa [InFlight] using old
  | @deleteEmpty n full rest u x found live empty =>
      left
      refine leg.mono (fun i y isLive mem => .linked (deleteSet_cfxs isLive) mem) (fun v isFound mem => ?_) fun set flies => ?_
      · rw [deleteSet_unlinked] at isFound
        split at isFound
        · cases isFound
        · exact .unlinked isFound mem
      · exact .flying (later rfl (idle [_] (by simp [Frame.circuit]) flies))
  | @teardown n full rest id x linked live =>
      left
      refine leg.mono (fun i y isLive mem => ?_) (fun v found mem => .inr (.inl ⟨v, found, mem⟩)) fun set flies => ?_
      · rcases updated_cfx isLive with ⟨rfl, rfl⟩ | ⟨-, was⟩
        · exact .inl ⟨_, x, live, rfl, mem⟩
        · exact .linked was mem
      · exact .flying (later rfl (idle _ (by simp [Frame.circuit]) flies))
  | @refill c n full rest linked =>
      exact .inl (leg.restack fun _ flies => later rfl (idle [.launchLeg n] (by simp [Frame.circuit]) flies))
  | @rebuild c n full rest id x d' unlinked holds live rebuilt =>
      left
      have old : IsLeg d (.launchLeg n :: rest) m a := by
        rcases rebuild_inv rebuilt with ⟨u, -, -, rfl⟩ | ⟨d₁, u, created, empty, rfl⟩
        · exact leg
        · have made : IsLeg d₁ (.launchLeg n :: rest) m a := by
            refine leg.mono (fun i y isLive mem => ?_) (fun v isFound mem => ?_) fun _ => .flying
            · simp only [Pools.modifyCirc, Pools.setCfx, Pools.setUnlinked, Function.update_apply] at isLive
              split at isLive
              · cases isLive
              · exact .linked isLive mem
            · simp only [Pools.modifyCirc, Pools.setCfx, Pools.setUnlinked, Function.update_apply] at isFound
              split at isFound
              · obtain rfl := Option.some.inj isFound
                rw [Unlinked.circs, empty] at mem
                cases mem
              · exact .unlinked isFound mem
          have same : d₁ = (d.unlinkedGetOrCreate n).1 := by rw [created]
          exact getOrCreate_isLeg (same ▸ made)
      exact old.restack fun _ flies => later rfl (idle [.launchLeg n] (by simp [Frame.circuit]) flies)
  | @refuse n c path rest d' u x unborn created live spent =>
      left
      have made : IsLeg (d.unlinkedGetOrCreate n).1 stack' m a := by rw [created]; exact leg
      exact (getOrCreate_isLeg made).restack fun _ => later rfl
  | @launch n c path rest frames d₁ u x exit unborn created live allowed lookup next =>
      have old : IsLeg d₁ (frames ++ rest) m a := newCircuit_isLeg live leg
      have made : IsLeg (d.unlinkedGetOrCreate n).1 (frames ++ rest) m a := by rw [created]; exact old
      rcases getOrCreate_isLeg made with linked | unlinked | ⟨set, flies⟩
      · exact .inl (.inl linked)
      · exact .inl (.inr (.inl unlinked))
      · by_cases new : InFlight frames m set a
        · right
          have isNew : m = n ∧ a = c := by
            rcases next with ⟨-, rfl⟩ | ⟨_, -, -, rfl⟩
            · simp [InFlight] at new
              exact ⟨new.1, new.2.2⟩
            · simp [InFlight] at new
              exact ⟨new.1, new.2.2⟩
          obtain ⟨rfl, rfl⟩ := isNew
          exact ⟨path, rfl, rfl, unborn, by simp [Pools.newCircuit]⟩
        · have old : InFlight rest m set a := by
            refine flies.imp (fun mem => ?_) fun mem => ?_
            · exact (List.mem_append.mp mem).resolve_left fun isNew => new (.inl isNew)
            · exact (List.mem_append.mp mem).resolve_left fun isNew => new (.inr isNew)
          exact .inl (.flying (later rfl old))
  | oom isOpen => exact .inl (leg.restack fun _ flies => idle [_] (by simp [Frame.circuit]) flies)
  | buildFails | built =>
      refine .inl (leg.restack fun set flies => ?_)
      simp only [InFlight, List.mem_cons] at flies ⊢
      grind
  | @register n c full rest u alive found =>
      left
      refine leg.mono (fun i y live mem => .inl ⟨i, y, live, rfl, mem⟩) (fun v isFound mem => ?_)
        fun _ flies => .flying (later rfl flies)
      simp only [Pools.register, Pools.setUnlinked, Function.update_apply] at isFound
      split at isFound
      · rename_i here
        subst here
        obtain rfl := Option.some.inj isFound
        rw [Unlinked.circs, List.map_append] at mem
        rcases List.mem_append.mp mem with old | new
        · exact .unlinked found old
        · obtain rfl : a = c := by simpa using new
          exact .flying (.inr (.head _))
      · exact .unlinked isFound mem

theorem Sound.not_leg {a : CircId} (sound : Sound d stack) (unborn : a ∉ d.global) : ¬IsLeg d stack n a := by
  obtain ⟨noObject, noNonce⟩ := sound.neat.created a unborn
  rintro (⟨i, y, live, -, mem⟩ | ⟨v, found, mem⟩ | ⟨k, flies⟩)
  · rw [(sound.neat.owned.legs i y live).2 a mem] at noObject
    cases noObject
  · rw [(sound.neat.waits n v found).2 a mem] at noNonce
    cases noNonce
  · exact unborn (sound.flies n k a flies).2.1

end Legs
end TorJet.Pool
