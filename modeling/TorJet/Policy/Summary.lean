import Mathlib.Data.List.Basic
import TorJet.Policy.Definite
import TorJet.Policy.Pattern

/-!
# Summaries of exit policies

Which ports a policy is said to accept: those of a wildcard that not too many addresses were rejected for before.
-/

namespace TorJet.Policy
open Base

def privateNets : List Text :=
  ["0.0.0.0/8".toList, "169.254.0.0/16".toList, "127.0.0.0/8".toList, "192.168.0.0/16".toList, "10.0.0.0/8".toList,
    "172.16.0.0/12".toList, "[::]/8".toList, "[fc00::]/7".toList, "[fe80::]/10".toList, "[fec0::]/10".toList,
    "[ff00::]/8".toList, "[::]/127".toList]

/-! ## What is counted -/

def privateNetworks : List Pattern := privateNets.filterMap (torAddrParseMaskPorts · ⟨false, false, false, rfl⟩)

end TorJet.Policy
