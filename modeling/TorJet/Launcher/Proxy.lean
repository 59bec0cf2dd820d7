import TorJet.Base.Machine
import TorJet.Base.Text

/-!
# The system proxy

`SetSystemProxy` replaces the user's proxy settings in the registry by the launcher's own and puts them
back. What they were is kept in memory and, for a crash, in a file.
-/

namespace TorJet.Launcher
open Base

inductive RegValue
  | dword (n : Nat)
  | text (t : Text)
  | other (n : Nat)
  deriving DecidableEq

/-- The values under `ProxyKey`. -/
structure Registry where
  proxyEnable : Option RegValue
  proxyServer : Option RegValue
  proxyOverride : Option RegValue
  deriving DecidableEq

/-- `GetValue(..) as string`. -/
def RegValue.asString : Option RegValue → Option Text
  | some (.text t) => some t
  | _ => none

/-- The HTTP port that `liveHttpPort` can be: the primary one, or that of a race winner. -/
inductive LivePort
  | primary
  | racer (i : Fin 3)
  deriving DecidableEq

def racerHttpPorts : List Nat := [8150, 8250, 8350]

def LivePort.number : LivePort → Nat
  | .primary => 8118
  | .racer i => racerHttpPorts.get i

def localPort (port : Nat) : Text := "127.0.0.1:".toList ++ (toString port).toList

section Proxy
variable (k : Text.Casing)

def ourProxyServer (server : Text) : Bool :=
  k.contains server (localPort 8118) || racerHttpPorts.any fun p => k.contains server (localPort p)

def proxyIsOurs (r : Registry) : Bool :=
  r.proxyEnable = some (.dword 1) && (RegValue.asString r.proxyServer).any (ourProxyServer k)

/-- `savedProxy`, `savedProxyOverride` and `savedProxyOn`. -/
structure Saved where
  proxy : Option Text
  override : Option Text
  on : Bool
  deriving DecidableEq

def Saved.nothing : Saved := ⟨none, none, false⟩

/-- The settings as `SetSystemProxy` saves them. -/
def Saved.ofRegistry (r : Registry) : Saved where
  proxy := some ((RegValue.asString r.proxyServer).getD [])
  override := some ((RegValue.asString r.proxyOverride).getD [])
  on := r.proxyEnable = some (.dword 1)

/-- The settings as `SetSystemProxy` puts them back. -/
def Saved.registry (saved : Saved) : Registry where
  proxyEnable := some (.dword (if saved.on then 1 else 0))
  proxyServer := some (.text (saved.proxy.getD []))
  proxyOverride := some (.text (saved.override.getD []))

def ourRegistry (port : LivePort) : Registry where
  proxyEnable := some (.dword 1)
  proxyServer := some (.text (localPort port.number))
  proxyOverride := some (.text "<local>".toList)

/-- The file that `SaveProxyBackup` writes. -/
def Saved.backup (saved : Saved) : Text :=
  "server=".toList ++ saved.proxy.getD [] ++ '\n' ::
    ("override=".toList ++ saved.override.getD [] ++ '\n' ::
      ("enabled=".toList ++ [if saved.on then '1' else '0'] ++ '\n' :: []))

/-- One line of the backup, as the loop of `LoadProxyBackup` takes it. -/
def readBackupLine (saved : Saved) (raw : Text) : Saved :=
  let line := raw.trim
  if "server=".toList.isPrefixOf line then { saved with proxy := some (line.drop 7) }
  else if "override=".toList.isPrefixOf line then { saved with override := some (line.drop 9) }
  else if "enabled=".toList.isPrefixOf line then { saved with on := line.drop 8 = ['1'] }
  else saved

def readBackup (file : Text) : Saved := file.readAllLines.foldl readBackupLine .nothing

def loadProxyBackup (r : Registry) (file : Option Text) (saved : Saved) : Saved :=
  match file with
  | none => saved
  | some content =>
      let found := readBackup content
      if found.proxy.isSome && found.override.isSome && proxyIsOurs k r then found else saved

structure Process where
  saved : Saved
  liveHttpPort : LivePort
  deriving DecidableEq

structure Desktop where
  registry : Registry
  backup : Option Text
  process : Option Process
  user : Registry
  deriving DecidableEq

structure Edit where
  proxyEnable : Option (Option RegValue)
  proxyServer : Option (Option RegValue)
  proxyOverride : Option (Option RegValue)
  deriving DecidableEq

def Edit.apply (e : Edit) (r : Registry) : Registry where
  proxyEnable := e.proxyEnable.getD r.proxyEnable
  proxyServer := e.proxyServer.getD r.proxyServer
  proxyOverride := e.proxyOverride.getD r.proxyOverride

inductive Action
  | start
  | crash
  | movePort (port : LivePort)
  | setSystemProxy (on : Bool)
  | edit (e : Edit)
  deriving DecidableEq

namespace Desktop
variable (s : Desktop)

/-- `SetSystemProxy(true)`. -/
def proxyOn (proc : Process) : Desktop :=
  let s :=
    if proxyIsOurs k s.registry then s
    else
      let saved := Saved.ofRegistry s.registry
      { s with process := some { proc with saved := saved }, backup := some saved.backup }
  { s with registry := ourRegistry proc.liveHttpPort }

/-- `SetSystemProxy(false)`. -/
def proxyOff (proc : Process) : Desktop :=
  if proxyIsOurs k s.registry then { s with registry := proc.saved.registry, backup := none } else s

/-- `LoadProxyBackup` at the start of a run. -/
def started : Process where
  saved := loadProxyBackup k s.registry s.backup .nothing
  liveHttpPort := .primary

def step : Action → Option Desktop
  | .start =>
      if s.process.isSome then none else some { s with process := some (s.started k) }
  | .crash => s.process.map fun _ => { s with process := none }
  | .movePort port => s.process.map fun proc => { s with process := some { proc with liveHttpPort := port } }
  | .setSystemProxy true => s.process.map (s.proxyOn k)
  | .setSystemProxy false => s.process.map (s.proxyOff k)
  | .edit e => some { s with registry := e.apply s.registry, user := e.apply s.user }

def machine : Machine Desktop Action where
  step s a := step k s a

def initial (r : Registry) : Desktop := ⟨r, none, none, r⟩

end Desktop

/-! ## The settings come back -/

def Registry.plain (r : Registry) : Bool :=
  (r.proxyEnable = some (.dword 0) || r.proxyEnable = some (.dword 1)) &&
    (RegValue.asString r.proxyServer).isSome && (RegValue.asString r.proxyOverride).isSome

theorem asString_eq_some {v : Option RegValue} {t : Text} (h : RegValue.asString v = some t) :
    v = some (.text t) := by
  unfold RegValue.asString at h
  split at h
  · rw [Option.some.inj h]
  · cases h

theorem Registry.plain_restored {r : Registry} (h : r.plain = true) : (Saved.ofRegistry r).registry = r := by
  obtain ⟨enable, server, exceptions⟩ := r
  simp only [Registry.plain, Bool.and_eq_true, Bool.or_eq_true, decide_eq_true_eq,
    Option.isSome_iff_exists] at h
  obtain ⟨⟨enabled, proxy, isServer⟩, override, isOver⟩ := h
  obtain rfl := asString_eq_some isServer
  obtain rfl := asString_eq_some isOver
  rcases enabled with rfl | rfl <;> simp [Saved.ofRegistry, Saved.registry, RegValue.asString]

def survives (t : Text) : Bool := t.OneLine && t.trimEnd = t

section Backup
variable (saved : Saved) {t : Text}

theorem isPrefixOf_label (label : Text) : label.isPrefixOf (label ++ t) = true :=
  List.isPrefixOf_iff_prefix.mpr (List.prefix_append label t)

theorem readBackupLine_server (trimmed : t.trimEnd = t) :
    readBackupLine saved ("server=".toList ++ t) = { saved with proxy := some t } := by
  have line : Text.trim ("server=".toList ++ t) = "server=".toList ++ t := by
    simpa using Text.trim_labelled 's' "erver".toList '=' (by decide) (by decide) trimmed
  have rest : List.drop 7 ("server=".toList ++ t) = t := List.drop_left' (by decide)
  unfold readBackupLine
  rw [line, if_pos (isPrefixOf_label _), rest]

theorem readBackupLine_override (trimmed : t.trimEnd = t) :
    readBackupLine saved ("override=".toList ++ t) = { saved with override := some t } := by
  have line : Text.trim ("override=".toList ++ t) = "override=".toList ++ t := by
    simpa using Text.trim_labelled 'o' "verride".toList '=' (by decide) (by decide) trimmed
  have rest : List.drop 9 ("override=".toList ++ t) = t := List.drop_left' (by decide)
  unfold readBackupLine
  rw [line, if_neg (by simp), if_pos (isPrefixOf_label _), rest]

theorem readBackupLine_enabled (on : Bool) :
    readBackupLine saved ("enabled=".toList ++ [if on then '1' else '0']) = { saved with on := on } := by
  have line (digit : Char) (shown : isWhiteSpace digit = false) :
      Text.trim ("enabled=".toList ++ [digit]) = "enabled=".toList ++ [digit] := by
    simpa using Text.trim_labelled 'e' "nabled".toList '=' (by decide) (by decide)
      (show Text.trimEnd [digit] = [digit] by simp [Text.trimEnd, List.rdropWhile_singleton, shown])
  have rest (digit : Char) : List.drop 8 ("enabled=".toList ++ [digit]) = [digit] :=
    List.drop_left' (by decide)
  unfold readBackupLine
  rw [line _ (by cases on <;> decide), if_neg (by simp), if_neg (by simp),
    if_pos (isPrefixOf_label _), rest]
  cases on <;> rfl

theorem readBackup_backup {proxy override : Text} (on : Bool) (server : survives proxy = true)
    (exceptions : survives override = true) :
    readBackup (Saved.backup ⟨some proxy, some override, on⟩) = ⟨some proxy, some override, on⟩ := by
  simp only [survives, Bool.and_eq_true, decide_eq_true_eq] at server exceptions
  have serverLine : Text.OneLine ("server=".toList ++ proxy) := by
    simpa [Text.OneLine] using server.1
  have overLine : Text.OneLine ("override=".toList ++ override) := by
    simpa [Text.OneLine] using exceptions.1
  have onLine : Text.OneLine ("enabled=".toList ++ [if on then '1' else '0']) := by
    cases on <;> decide
  have ends : Text.readAllLines [] = [] := by simp [Text.readAllLines, Text.readAllLines.go]
  unfold readBackup Saved.backup
  rw [Option.getD_some, Option.getD_some, Text.readAllLines_line serverLine,
    Text.readAllLines_line overLine, Text.readAllLines_line onLine, ends]
  simp only [List.foldl_cons, List.foldl_nil]
  rw [readBackupLine_server _ server.2, readBackupLine_override _ exceptions.2, readBackupLine_enabled]

end Backup

def Edit.complete (e : Edit) : Bool :=
  e.proxyEnable.isSome && e.proxyServer.isSome && e.proxyOverride.isSome

theorem Edit.apply_complete {e : Edit} (h : e.complete = true) (r r' : Registry) : e.apply r = e.apply r' := by
  simp only [Edit.complete, Bool.and_eq_true, Option.isSome_iff_exists] at h
  obtain ⟨⟨⟨enable, isEnable⟩, server, isServer⟩, exceptions, isOver⟩ := h
  simp [Edit.apply, isEnable, isServer, isOver]

theorem ourRegistry_ours (port : LivePort) : proxyIsOurs k (ourRegistry port) = true := by
  have self (p : Nat) : k.contains (localPort p) (localPort p) = true := by
    simpa using k.contains_append [] (localPort p) []
  cases port with
  | primary => simp [proxyIsOurs, ourRegistry, RegValue.asString, ourProxyServer, LivePort.number, self]
  | racer i =>
      have mem : racerHttpPorts.get i ∈ racerHttpPorts := List.get_mem _ _
      simp only [proxyIsOurs, ourRegistry, RegValue.asString, ourProxyServer, LivePort.number,
        decide_true, Bool.true_and, Option.any_some, Bool.or_eq_true, List.any_eq_true]
      exact .inr ⟨_, mem, self _⟩

namespace Desktop

def orderly (s : Desktop) : Action → Bool
  | .start | .movePort _ | .setSystemProxy false => true
  | .crash => !proxyIsOurs k s.registry || s.process.all fun proc =>
      survives (proc.saved.proxy.getD []) && survives (proc.saved.override.getD [])
  | .setSystemProxy true => proxyIsOurs k s.registry || s.registry.plain
  | .edit e => !proxyIsOurs k (e.apply s.registry) && (!proxyIsOurs k s.registry || e.complete)

structure Holds (s : Desktop) (proxy override : Text) (on : Bool) : Prop where
  ours : proxyIsOurs k s.registry = true
  user : s.user = Saved.registry ⟨some proxy, some override, on⟩
  theirs : proxyIsOurs k s.user = false
  backup : s.backup = some (Saved.backup ⟨some proxy, some override, on⟩)
  memory : ∀ proc, s.process = some proc → proc.saved = ⟨some proxy, some override, on⟩
  file : s.process = none → survives proxy = true ∧ survives override = true

def Safe (s : Desktop) : Prop :=
  proxyIsOurs k s.registry = false ∧ s.registry = s.user ∨ ∃ proxy override on, s.Holds k proxy override on

variable {k} {s t : Desktop}

theorem start_safe (h : s.Safe k) (action : s.step k .start = some t) : t.Safe k := by
  simp only [step] at action
  split at action
  · cases action
  · rename_i stopped
    obtain rfl := Option.some.inj action
    have isNone : s.process = none := by simpa using stopped
    rcases h with ⟨free, same⟩ | ⟨proxy, override, on, held⟩
    · exact .inl ⟨free, same⟩
    · obtain ⟨server, exceptions⟩ := held.file isNone
      refine .inr ⟨proxy, override, on, { held with memory := fun proc eq => ?_, file := by simp }⟩
      obtain rfl := Option.some.inj eq
      simp [started, loadProxyBackup, held.backup, readBackup_backup on server exceptions, held.ours]

theorem crash_safe (h : s.Safe k) (ok : s.orderly k .crash = true)
    (action : s.step k .crash = some t) : t.Safe k := by
  obtain ⟨proc, running, rfl⟩ := Option.map_eq_some_iff.mp action
  rcases h with ⟨free, same⟩ | ⟨proxy, override, on, held⟩
  · exact .inl ⟨free, same⟩
  · refine .inr ⟨proxy, override, on, { held with memory := by simp, file := fun _ => ?_ }⟩
    have memory := held.memory proc running
    simpa [orderly, held.ours, running, memory] using ok

theorem movePort_safe {port : LivePort} (h : s.Safe k)
    (action : s.step k (.movePort port) = some t) : t.Safe k := by
  obtain ⟨proc, running, rfl⟩ := Option.map_eq_some_iff.mp action
  rcases h with ⟨free, same⟩ | ⟨proxy, override, on, held⟩
  · exact .inl ⟨free, same⟩
  · refine .inr ⟨proxy, override, on, { held with memory := fun other eq => ?_, file := by simp }⟩
    obtain rfl := Option.some.inj eq
    exact held.memory proc running

theorem proxyOn_safe (h : s.Safe k) (ok : s.orderly k (.setSystemProxy true) = true)
    (action : s.step k (.setSystemProxy true) = some t) : t.Safe k := by
  obtain ⟨proc, running, rfl⟩ := Option.map_eq_some_iff.mp action
  rcases h with ⟨free, same⟩ | ⟨proxy, override, on, held⟩
  · have plain : s.registry.plain = true := by simpa [orderly, free] using ok
    simp only [proxyOn, free, Bool.false_eq_true, if_false]
    refine .inr ⟨_, _, _, ourRegistry_ours k _, ?_, ?_, rfl, fun other eq => ?_, by simp⟩
    · rw [← same]
      exact (Registry.plain_restored plain).symm
    · rw [← same]
      exact free
    · obtain rfl := Option.some.inj eq
      rfl
  · simp only [proxyOn, held.ours, if_true]
    exact .inr ⟨proxy, override, on, { held with ours := ourRegistry_ours k _ }⟩

theorem proxyOff_restores (h : s.Safe k) (action : s.step k (.setSystemProxy false) = some t) :
    t.registry = t.user ∧ proxyIsOurs k t.registry = false := by
  obtain ⟨proc, running, rfl⟩ := Option.map_eq_some_iff.mp action
  rcases h with ⟨free, same⟩ | ⟨proxy, override, on, held⟩
  · simp only [proxyOff, free, Bool.false_eq_true, if_false]
    exact ⟨same, trivial⟩
  · simp only [proxyOff, held.ours, if_true]
    rw [held.memory proc running, ← held.user]
    exact ⟨rfl, held.theirs⟩

theorem edit_safe {e : Edit} (h : s.Safe k) (ok : s.orderly k (.edit e) = true)
    (action : s.step k (.edit e) = some t) : t.Safe k := by
  obtain rfl := Option.some.inj action
  simp only [orderly, Bool.and_eq_true, Bool.not_eq_true', Bool.or_eq_true] at ok
  refine .inl ⟨ok.1, ?_⟩
  rcases h with ⟨-, same⟩ | ⟨_, _, _, held⟩
  · rw [same]
  · have complete : e.complete = true := ok.2.resolve_left (by simp [held.ours])
    exact e.apply_complete complete s.registry s.user

theorem step_safe {a : Action} (h : s.Safe k) (ok : s.orderly k a = true)
    (action : s.step k a = some t) : t.Safe k := by
  cases a with
  | start => exact start_safe h action
  | crash => exact crash_safe h ok action
  | movePort port => exact movePort_safe h action
  | setSystemProxy on =>
      cases on with
      | true => exact proxyOn_safe h ok action
      | false =>
          obtain ⟨same, free⟩ := proxyOff_restores h action
          exact .inl ⟨free, same⟩
  | edit e => exact edit_safe h ok action

/-- In an orderly run, turning the proxy off leaves the last settings that the user chose. -/
theorem proxy_off_restores_user {r : Registry} (theirs : proxyIsOurs k r = false)
    (reach : (machine k).Reach (fun s a => s.orderly k a = true) (initial r) s)
    (action : s.step k (.setSystemProxy false) = some t) : t.registry = t.user := by
  have safe : s.Safe k := by
    refine reach.invariant (.inl ⟨theirs, rfl⟩) fun s a t h ok action => ?_
    exact step_safe h ok action
  exact (proxyOff_restores safe action).1

end Desktop
end Proxy

namespace Desktop

def ownProxy : Registry where
  proxyEnable := some (.dword 1)
  proxyServer := some (.text "10.0.0.1:3128".toList)
  proxyOverride := some (.text "<local>;10.*".toList)

/-- A crash with the proxy on, a restart, and the proxy off. -/
theorem own_proxy_restored :
    ∃ s t : Desktop, proxyIsOurs .plain ownProxy = false ∧
      (machine .plain).Reach (fun s a => s.orderly .plain a = true) (initial ownProxy) s ∧
      s.step .plain (.setSystemProxy false) = some t ∧ t.user = ownProxy ∧ t.registry = t.user := by
  have theirs : proxyIsOurs .plain ownProxy = false := by decide +kernel
  obtain ⟨s, reach, found⟩ := Machine.exists_of_run (machine .plain)
    (fun s a => s.orderly .plain a = true) (initial ownProxy)
    (P := fun s => s.user = ownProxy ∧ (s.step .plain (.setSystemProxy false)).isSome)
    [.start, .setSystemProxy true, .crash, .start] (by decide +kernel)
  obtain ⟨t, action⟩ := Option.isSome_iff_exists.mp found.2
  have kept : t.user = s.user := by
    obtain ⟨proc, running, rfl⟩ := Option.map_eq_some_iff.mp action
    unfold proxyOff
    split <;> rfl
  exact ⟨s, t, theirs, reach, action, kept.trans found.1, proxy_off_restores_user theirs reach action⟩

/-- Settings that were never made are not there again after the proxy was on. -/
theorem absent_settings_written :
    ∃ (r : Registry) (s t : Desktop), (machine .plain).Reach (fun _ _ => True) (initial r) s ∧
      s.step .plain (.setSystemProxy false) = some t ∧ t.registry ≠ t.user := by
  obtain ⟨s, reach, found⟩ := Machine.exists_of_run (machine .plain) (fun _ _ => True)
    (initial ⟨some (.dword 0), none, none⟩)
    (P := fun s => (s.step .plain (.setSystemProxy false)).any
      (fun t => t.registry.proxyServer = some (.text []) ∧ t.user.proxyServer = none) = true)
    [.start, .setSystemProxy true] (by decide +kernel)
  obtain ⟨t, action, written⟩ := (Option.any_eq_true _ _).mp found
  obtain ⟨now, before⟩ := of_decide_eq_true written
  refine ⟨_, s, t, reach, action, fun same => ?_⟩
  rw [same, before] at now
  cases now

end Desktop
end TorJet.Launcher
