import TorJet.Base.Machine
import TorJet.Smartlist.Core
import TorJet.Guards.Operations

/-!
# The lists of a guard selection

The confirmed and the primary list are the sample without some of its guards, in its order.
-/

namespace TorJet.Guards
open Net
open scoped List

namespace GuardSelection
variable {gs s t u : GuardSelection} {f : EntryGuard → EntryGuard} {P : Nat → Prop} {env : Env}

def ptrs (gs : GuardSelection) : List Nat := gs.sampledEntryGuards.map (·.ptr)

structure Sampled (gs : GuardSelection) : Prop where
  nodup : gs.ptrs.Nodup
  fresh : ∀ g ∈ gs.sampledEntryGuards, g.ptr < gs.nextPtr
  ascending : gs.sampledEntryGuards.Pairwise fun a b => a.sampledIdx < b.sampledIdx
  below : ∀ g ∈ gs.sampledEntryGuards, g.sampledIdx < gs.nextSampledIdx
  usable : ∀ g ∈ gs.sampledEntryGuards, g.isUsableFilteredGuard = true → g.isFilteredGuard = true
  quiet : gs.faults = []

def Marks (gs : GuardSelection) (P : Nat → Prop) : Prop :=
  ∀ g ∈ gs.sampledEntryGuards, g.isPrimary = true ↔ P g.ptr

end GuardSelection

/-! The changes that operations make to guards. -/

namespace GuardSelection
variable {gs s t u : GuardSelection} {f : EntryGuard → EntryGuard} {P : Nat → Prop} {env : Env}

/-! Sampling. -/

/-! Keeping up with the consensus. -/

end GuardSelection
end TorJet.Guards
