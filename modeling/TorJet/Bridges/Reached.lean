import TorJet.Bridges.Configured

/-!
# Connections to bridges

Which proxy a connection to a bridge goes through, and what the handshake with the proxy says of the arguments
on the line of the bridge.
-/

namespace TorJet.Bridges
open Base Net

inductive SocksVersion
  | socks4
  | socks5
  deriving DecidableEq

/-- A `transport_t` -/
structure PtTransport where
  name : Text
  addrport : AddrPort
  socksVersion : SocksVersion
  deriving DecidableEq

inductive ProxyType
  | none
  | connect
  | socks4
  | socks5
  | pluggable
  | haproxy
  deriving DecidableEq

def SocksVersion.proxyType : SocksVersion → ProxyType
  | .socks4 => .socks4
  | .socks5 => .socks5

/-- The proxies of an `or_options_t`; `clientTransportPlugin` says whether it has such lines. -/
structure Options where
  clientTransportPlugin : Bool
  httpsProxy : Option AddrPort
  socks4Proxy : Option AddrPort
  socks5Proxy : Option AddrPort
  tcpProxy : Option AddrPort
  socks5ProxyUsername : Option Text
  socks5ProxyPassword : Option Text

/-- How `options_validate_cb` reads a SOCKS5 name or password. -/
def authFieldOk (field : Text) : Bool := 1 ≤ field.length && field.length ≤ MAX_SOCKS5_AUTH_FIELD_SIZE

/-- `options_validate_cb` of the SOCKS5 name and password. -/
def validateSocks5Auth (options : Options) : Bool :=
  match options.socks5ProxyUsername, options.socks5ProxyPassword with
  | none, none => true
  | some user, some pass => authFieldOk user && authFieldOk pass
  | _, _ => false

structure Tor where
  options : Options
  transports : List PtTransport
  bridges : List BridgeInfo

inductive Step
  | closed
  | failed
  | sent (bytes : List Nat)
  deriving DecidableEq

structure Proxy where
  addrport : Option AddrPort
  proxyType : ProxyType
  isPt : Bool
  deriving DecidableEq

section Connect
variable (tor : Tor) (conn : AddrPort)

def transportGetByName (name : Text) : Option PtTransport := tor.transports.find? (·.name = name)

/-- `get_configured_bridge_by_addr_port_digest` without a digest. -/
def getConfiguredBridge : Option BridgeInfo := tor.bridges.find? (·.addrport = conn)

/-- `get_transport_by_bridge_addrport`; the outer `none` is its `-1`. -/
def getTransportByBridgeAddrport : Option (Option PtTransport) :=
  match getConfiguredBridge tor conn with
  | none => some none
  | some bridge =>
      match bridge.transportName with
      | none => some none
      | some name => (transportGetByName tor name).map some

def getSocksArgsByBridgeAddrport : Option (List Text) := (getConfiguredBridge tor conn).bind (·.socksArgs)

def ptGetSocksArgsForProxyAddrport : Option Text := (getSocksArgsByBridgeAddrport tor conn).map ptStringifySocksArgs

def globalProxy : Proxy :=
  if tor.options.httpsProxy.isSome then ⟨tor.options.httpsProxy, .connect, false⟩
  else if tor.options.socks4Proxy.isSome then ⟨tor.options.socks4Proxy, .socks4, false⟩
  else if tor.options.socks5Proxy.isSome then ⟨tor.options.socks5Proxy, .socks5, false⟩
  else if tor.options.tcpProxy.isSome then ⟨tor.options.tcpProxy, .haproxy, false⟩
  else ⟨none, .none, false⟩

def getProxyAddrport : Option Proxy :=
  if tor.options.clientTransportPlugin then
    match getTransportByBridgeAddrport tor conn with
    | none => none
    | some (some t) => some ⟨some t.addrport, t.socksVersion.proxyType, true⟩
    | some none => some (globalProxy tor)
  else some (globalProxy tor)

def connGetProxyType : ProxyType :=
  match tor.options.clientTransportPlugin, getTransportByBridgeAddrport tor conn with
  | true, some (some _) => .pluggable
  | _, _ => (globalProxy tor).proxyType

/-! The two kinds of handshake. -/

def bytesOf (t : Text) : List Nat := t.map Char.toNat

/-- A number of `n` bytes in network order. -/
def networkBytes : Nat → Nat → List Nat
  | 0, _ => []
  | n + 1, a => networkBytes n (a / 256) ++ [a % 256]

def connectionSocks4ProxyConnect : Step :=
  match conn.1 with
  | .inet6 _ => .closed
  | .inet a =>
      let request := [4, 1] ++ networkBytes 2 conn.2 ++ networkBytes 4 a
      let argString := if connGetProxyType tor conn = .pluggable then ptGetSocksArgsForProxyAddrport tor conn else none
      match argString with
      | none => .sent (request ++ [0])
      | some s => if s = [] then .failed else .sent (request ++ bytesOf (cstr s) ++ [0])

/-- Whether `connection_socks5_proxy_connect` offers a name and a password. -/
def offersAuth : Bool :=
  tor.options.socks5ProxyUsername.isSome ||
    (connGetProxyType tor conn = .pluggable && (getSocksArgsByBridgeAddrport tor conn).isSome)

def connectionSocks5ProxyConnect : Step := .sent (if offersAuth tor conn then [5, 2, 0, 2] else [5, 1, 0])

def sendRfc1929 (user pass : Text) : Step :=
  if user.length ≤ MAX_SOCKS5_AUTH_FIELD_SIZE ∧ pass.length ≤ MAX_SOCKS5_AUTH_FIELD_SIZE then
    .sent ([1, user.length] ++ bytesOf user ++ [pass.length] ++ bytesOf pass)
  else .failed

/-- `connection_read_proxy_handshake` when the proxy asks for a name and a password. -/
def sendAuth : Step :=
  if connGetProxyType tor conn = .pluggable then
    match ptGetSocksArgsForProxyAddrport tor conn with
    | none => .closed
    | some s =>
        if s = [] ∨ MAX_SOCKS5_AUTH_SIZE_TOTAL < s.length then .failed
        else if MAX_SOCKS5_AUTH_FIELD_SIZE < s.length then
          sendRfc1929 (s.take MAX_SOCKS5_AUTH_FIELD_SIZE) (s.drop MAX_SOCKS5_AUTH_FIELD_SIZE)
        else sendRfc1929 s ['\x00']
  else
    match tor.options.socks5ProxyUsername with
    | none => .closed
    | some user =>
        match tor.options.socks5ProxyPassword with
        | none => .failed
        | some pass => sendRfc1929 user pass

end Connect

/-! What the proxy reads. -/

def userId (bytes : List Nat) : Text := ((bytes.drop 8).takeWhile (· ≠ 0)).map Char.ofNat

def readRfc1929 : List Nat → Option (Text × Text)
  | 1 :: usize :: rest =>
      match rest.drop usize with
      | psize :: pass => if pass.length = psize then some ((rest.take usize).map Char.ofNat, pass.map Char.ofNat) else none
      | [] => none
  | _ => none

theorem map_ofNat_bytesOf (t : Text) : (bytesOf t).map Char.ofNat = t := by
  simp [bytesOf, Function.comp_def]

theorem length_networkBytes (n a : Nat) : (networkBytes n a).length = n := by
  induction n generalizing a with
  | zero => rfl
  | succ n ih => rw [networkBytes, List.length_append, ih, List.length_singleton]

theorem userId_request {port address : Nat} {t : Text} (noNul : '\x00' ∉ t) :
    userId ([4, 1] ++ networkBytes 2 port ++ networkBytes 4 address ++ bytesOf t ++ [0]) = t := by
  have header : ([4, 1] ++ networkBytes 2 port ++ networkBytes 4 address).length = 8 := by
    simp [length_networkBytes]
  have plain : ∀ c ∈ bytesOf t, decide (c ≠ 0) = true := by
    intro c mem
    obtain ⟨d, there, rfl⟩ := List.mem_map.mp mem
    refine decide_eq_true fun zero => noNul ?_
    have nul : d = '\x00' := by rw [← Char.ofNat_toNat d, zero]
    rwa [nul] at there
  rw [userId, List.append_assoc _ (bytesOf t), List.drop_append_of_le_length (by omega), ← header, List.drop_length,
    List.nil_append, List.takeWhile_append_of_pos plain]
  simp [map_ofNat_bytesOf]

theorem readRfc1929_message (user pass : Text) :
    readRfc1929 ([1, user.length] ++ bytesOf user ++ [pass.length] ++ bytesOf pass) = some (user, pass) := by
  have rest : (bytesOf user ++ ([pass.length] ++ bytesOf pass)).drop user.length = pass.length :: bytesOf pass := by
    simp [bytesOf]
  have first : (bytesOf user ++ ([pass.length] ++ bytesOf pass)).take user.length = bytesOf user := by
    simp [bytesOf]
  have fits : (bytesOf pass).length = pass.length := by simp [bytesOf]
  simp only [List.cons_append, List.nil_append, List.append_assoc] at rest first ⊢
  rw [readRfc1929, rest]
  dsimp only
  rw [if_pos fits, first, map_ofNat_bytesOf, map_ofNat_bytesOf]

end TorJet.Bridges

/-!
## Configurations in a row

What a configuration's lines promise of the bridges and of the connections to them, and when the promise is kept
after a sequence of configurations.
-/

namespace TorJet.Bridges
open Base Net
open scoped List

structure Config where
  options : Options
  bridgeLines : List Text
  auth : validateSocks5Auth options = true
  parsed : ∀ line ∈ bridgeLines, (parseBridgeLine line).isSome = true

def Config.lines (c : Config) : List BridgeLine := c.bridgeLines.filterMap parseBridgeLine

def bridgesAfter (configs : List Config) : List BridgeInfo :=
  configs.foldl (fun bridges c => optionsAct bridges c.lines) []

def proxyOf (tor : Tor) (l : BridgeLine) : Option Proxy :=
  match l.transportName with
  | none => some (globalProxy tor)
  | some name => (transportGetByName tor name).map fun t => ⟨some t.addrport, t.socksVersion.proxyType, true⟩

def Pluggable (tor : Tor) (l : BridgeLine) : Prop := ∃ name t, l.transportName = some name ∧ transportGetByName tor name = some t

structure Served (tor : Tor) (line : Text) (l : BridgeLine) : Prop where
  proxy : getProxyAddrport tor l.addrport = proxyOf tor l
  socks4 : Pluggable tor l → ∀ a, l.addrport.1 = .inet a →
    ∃ bytes, connectionSocks4ProxyConnect tor l.addrport = .sent bytes ∧ decodeArgs (userId bytes) = keyValues line
  socks5 : Pluggable tor l → keyValues line ≠ [] →
    offersAuth tor l.addrport = true ∧
      ∃ bytes user pass, sendAuth tor l.addrport = .sent bytes ∧ readRfc1929 bytes = some (user, pass) ∧
        user.length ≤ MAX_SOCKS5_AUTH_FIELD_SIZE ∧ pass.length ≤ MAX_SOCKS5_AUTH_FIELD_SIZE ∧
        decodeArgs (joinFields user pass) = keyValues line
  noArgs : Pluggable tor l → keyValues line = [] → sendAuth tor l.addrport = .closed
  noAssertion : connectionSocks4ProxyConnect tor l.addrport ≠ .failed ∧ sendAuth tor l.addrport ≠ .failed

structure Reached (c : Config) (bridges : List BridgeInfo) : Prop where
  current : bridges ~ (lastLines c.lines).map .ofLine
  served : ∀ (transports : List PtTransport) (line : Text) (l : BridgeLine), line ∈ c.bridgeLines →
    parseBridgeLine line = some l → l ∈ lastLines c.lines → Served ⟨c.options, transports, bridges⟩ line l

structure Applies (done : List Config) (c : Config) : Prop where
  emptied : c.bridgeLines = [] → ∀ d ∈ done, d.bridgeLines = []
  plugged : c.options.clientTransportPlugin = false → ∀ l ∈ lastLines c.lines, l.transportName = none

section Bridges
variable {c : Config} {configs : List Config} {line : Text} {l : BridgeLine} {tor : Tor} {conn : AddrPort}

theorem Config.lines_eq_nil : c.lines = [] ↔ c.bridgeLines = [] := by
  constructor
  · intro none
    rw [List.eq_nil_iff_forall_not_mem]
    intro line mem
    obtain ⟨l, parsed⟩ := Option.isSome_iff_exists.mp (c.parsed line mem)
    have there : l ∈ c.lines := List.mem_filterMap.mpr ⟨line, mem, parsed⟩
    rw [none] at there
    cases there
  · intro none
    rw [Config.lines, none, List.filterMap_nil]

theorem bridgesAfter_concat (configs : List Config) (c : Config) :
    bridgesAfter (configs ++ [c]) = optionsAct (bridgesAfter configs) c.lines := by
  rw [bridgesAfter, List.foldl_concat]
  rfl

theorem optionsAct_ne_nil (bridges : List BridgeInfo) {lines : List BridgeLine} (some : lines ≠ []) :
    optionsAct bridges lines ≠ [] := by
  obtain ⟨first, rest, rfl⟩ := List.exists_cons_of_ne_nil some
  obtain ⟨last, mem, -⟩ := exists_lastLine (List.mem_cons_self (a := first) (l := rest))
  intro none
  have perm := optionsAct_perm some bridges
  rw [none] at perm
  have empty := List.map_eq_nil_iff.mp (List.nil_perm.mp perm)
  rw [empty] at mem
  cases mem

theorem bridgesAfter_eq_nil : bridgesAfter configs = [] ↔ ∀ d ∈ configs, d.bridgeLines = [] := by
  induction configs using List.reverseRecOn with
  | nil => exact iff_of_true rfl fun d mem => absurd mem List.not_mem_nil
  | append_singleton configs c ih =>
      rw [bridgesAfter_concat, List.forall_mem_append, List.forall_mem_singleton]
      by_cases none : c.lines = []
      · rw [none, optionsAct, if_pos rfl, ih, ← Config.lines_eq_nil (c := c)]
        exact (and_iff_left none).symm
      · refine iff_of_false (optionsAct_ne_nil _ none) fun all => none ?_
        exact Config.lines_eq_nil.mpr all.2

theorem getConfiguredBridge_ofLine (found : tor.bridges ~ (lastLines c.lines).map .ofLine) (last : l ∈ lastLines c.lines) :
    getConfiguredBridge tor l.addrport = some (.ofLine l) := by
  have there : BridgeInfo.ofLine l ∈ tor.bridges := found.mem_iff.mpr (List.mem_map_of_mem last)
  have single : ((tor.bridges).map (·.addrport)).Nodup := by
    rw [(found.map _).nodup_iff, List.map_map]
    exact lastLines_nodup c.lines
  cases first : getConfiguredBridge tor l.addrport with
  | none => exact absurd (List.find?_eq_none.mp first _ there) (by simp [BridgeInfo.ofLine])
  | some b =>
      have same : b.addrport = l.addrport := of_decide_eq_true (List.find?_some (p := fun b : BridgeInfo => decide (b.addrport = l.addrport)) first)
      rw [List.inj_on_of_nodup_map single (List.mem_of_find?_eq_some first) there same]

end Bridges

section Served
variable {tor : Tor} {line : Text} {l : BridgeLine}

theorem pluggable_type (bridge : getConfiguredBridge tor l.addrport = some (.ofLine l))
    (plugin : tor.options.clientTransportPlugin = true) (pt : Pluggable tor l) :
    connGetProxyType tor l.addrport = .pluggable := by
  obtain ⟨name, t, named, found⟩ := pt
  have transport : getTransportByBridgeAddrport tor l.addrport = some (some t) := by
    rw [getTransportByBridgeAddrport, bridge]
    simp only [BridgeInfo.ofLine, named, found, Option.map_some]
  rw [connGetProxyType, plugin, transport]

theorem getProxyAddrport_ofLine (bridge : getConfiguredBridge tor l.addrport = some (.ofLine l))
    (plugin : tor.options.clientTransportPlugin = false → l.transportName = none) :
    getProxyAddrport tor l.addrport = proxyOf tor l := by
  rw [getProxyAddrport, getTransportByBridgeAddrport, bridge, proxyOf]
  cases flag : tor.options.clientTransportPlugin with
  | false => rw [plugin flag, if_neg Bool.false_ne_true]
  | true =>
      rw [if_pos rfl]
      cases named : l.transportName with
      | none => simp [BridgeInfo.ofLine, named]
      | some name => cases found : transportGetByName tor name <;> simp [BridgeInfo.ofLine, named, found]

theorem sendRfc1929_of_le {user pass : Text} (u : user.length ≤ MAX_SOCKS5_AUTH_FIELD_SIZE)
    (p : pass.length ≤ MAX_SOCKS5_AUTH_FIELD_SIZE) :
    sendRfc1929 user pass = .sent ([1, user.length] ++ bytesOf user ++ [pass.length] ++ bytesOf pass) :=
  if_pos ⟨u, p⟩

theorem sendAuth_args {conn : AddrPort} {s : Text} (type : connGetProxyType tor conn = .pluggable)
    (args : ptGetSocksArgsForProxyAddrport tor conn = some s) (some : s ≠ [])
    (short : s.length ≤ MAX_SOCKS5_AUTH_SIZE_TOTAL) (noNul : '\x00' ∉ s) :
    ∃ bytes user pass, sendAuth tor conn = .sent bytes ∧ readRfc1929 bytes = .some (user, pass) ∧
      user.length ≤ MAX_SOCKS5_AUTH_FIELD_SIZE ∧ pass.length ≤ MAX_SOCKS5_AUTH_FIELD_SIZE ∧ joinFields user pass = s := by
  have inRange : ¬(s = [] ∨ MAX_SOCKS5_AUTH_SIZE_TOTAL < s.length) := by
    rw [not_or]
    exact ⟨some, Nat.not_lt.mpr short⟩
  rw [sendAuth, if_pos type, args]
  dsimp only
  rw [if_neg inRange]
  by_cases long : MAX_SOCKS5_AUTH_FIELD_SIZE < s.length
  · have u : (s.take MAX_SOCKS5_AUTH_FIELD_SIZE).length ≤ MAX_SOCKS5_AUTH_FIELD_SIZE := List.length_take_le _ _
    have p : (s.drop MAX_SOCKS5_AUTH_FIELD_SIZE).length ≤ MAX_SOCKS5_AUTH_FIELD_SIZE := by
      rw [List.length_drop]
      exact Nat.sub_le_iff_le_add.mpr (by rw [← Nat.two_mul]; exact short)
    rw [if_pos long, sendRfc1929_of_le u p]
    refine ⟨_, _, _, rfl, readRfc1929_message _ _, u, p, ?_⟩
    have notLone : s.drop MAX_SOCKS5_AUTH_FIELD_SIZE ≠ ['\x00'] := by
      intro lone
      have mem : '\x00' ∈ s.drop MAX_SOCKS5_AUTH_FIELD_SIZE := by rw [lone]; exact List.mem_singleton_self _
      exact noNul (List.mem_of_mem_drop mem)
    rw [joinFields, if_neg notLone, List.take_append_drop]
  · have u : s.length ≤ MAX_SOCKS5_AUTH_FIELD_SIZE := Nat.not_lt.mp long
    have p : ['\x00'].length ≤ MAX_SOCKS5_AUTH_FIELD_SIZE := by decide
    rw [if_neg long, sendRfc1929_of_le u p]
    exact ⟨_, _, _, rfl, readRfc1929_message _ _, u, p, if_pos rfl⟩

theorem cstr_eq {t : Text} (noNul : '\x00' ∉ t) : cstr t = t := by
  rw [cstr, List.takeWhile_eq_self_iff]
  intro c mem
  exact decide_eq_true fun nul => noNul (nul ▸ mem)

theorem connectionSocks4_args {conn : AddrPort} {a : Nat} {s : Text} (inet : conn.1 = .inet a)
    (type : connGetProxyType tor conn = .pluggable) (args : ptGetSocksArgsForProxyAddrport tor conn = some s)
    (some : s ≠ []) (noNul : '\x00' ∉ s) :
    ∃ bytes, connectionSocks4ProxyConnect tor conn = .sent bytes ∧ userId bytes = s := by
  rw [connectionSocks4ProxyConnect, inet]
  simp only [type, args, if_true, if_neg some]
  rw [cstr_eq noNul]
  exact ⟨_, rfl, userId_request noNul⟩

theorem stringify_noNul {args : List Text} (noNul : ∀ s ∈ args, '\x00' ∉ s) : '\x00' ∉ ptStringifySocksArgs args := by
  intro mem
  rw [ptStringifySocksArgs_eq] at mem
  rcases Escape.join_mem mem with sep | esc | ⟨s, there, here⟩
  · exact absurd sep (by decide)
  · exact absurd esc (by decide)
  · exact noNul s there here

theorem sendAuth_global {conn : AddrPort} (auth : validateSocks5Auth tor.options = true)
    (type : connGetProxyType tor conn ≠ .pluggable) : sendAuth tor conn ≠ .failed := by
  rw [sendAuth, if_neg type]
  unfold validateSocks5Auth at auth
  cases named : tor.options.socks5ProxyUsername with
  | none => exact Step.noConfusion
  | some user =>
      rw [named] at auth
      cases word : tor.options.socks5ProxyPassword with
      | none => rw [word] at auth; cases auth
      | some pass =>
          rw [word] at auth
          simp only [authFieldOk, Bool.and_eq_true, decide_eq_true_eq] at auth
          dsimp only
          rw [sendRfc1929_of_le auth.1.2 auth.2.2]
          exact Step.noConfusion

theorem served_of_bridge (bridge : getConfiguredBridge tor l.addrport = some (.ofLine l))
    (auth : validateSocks5Auth tor.options = true) (described : Described line l)
    (plugin : tor.options.clientTransportPlugin = false → l.transportName = none) : Served tor line l := by
  have sent : ptGetSocksArgsForProxyAddrport tor l.addrport = l.socksArgs.map ptStringifySocksArgs := by
    rw [ptGetSocksArgsForProxyAddrport, getSocksArgsByBridgeAddrport, bridge]
    rfl
  have type (pt : Pluggable tor l) : connGetProxyType tor l.addrport = .pluggable := by
    refine pluggable_type bridge ?_ pt
    obtain ⟨name, t, named, -⟩ := pt
    rw [← Bool.not_eq_false]
    intro off
    rw [plugin off] at named
    cases named
  have items (pt : Pluggable tor l) : l.socksArgs.getD [] = keyValues line := by
    obtain ⟨name, t, named, -⟩ := pt
    rw [described.args, named, Option.isSome_some, if_pos rfl]
  have noNul := stringify_noNul described.noNul
  have decodes := decode_stringify described.keyValue
  cases args : l.socksArgs with
  | none =>
      rw [args, Option.map_none] at sent
      rw [args] at items
      refine ⟨getProxyAddrport_ofLine bridge plugin, ?_, ?_, ?_, ?_, ?_⟩
      · intro pt a inet
        refine ⟨[4, 1] ++ networkBytes 2 l.addrport.2 ++ networkBytes 4 a ++ [0], ?_, ?_⟩
        · rw [connectionSocks4ProxyConnect, inet]
          simp only [type pt, sent, if_true]
        · have empty : userId ([4, 1] ++ networkBytes 2 l.addrport.2 ++ networkBytes 4 a ++ bytesOf [] ++ [0]) = [] :=
            userId_request List.not_mem_nil
          rw [bytesOf, List.map_nil, List.append_nil] at empty
          rw [empty, ← items pt]
          rfl
      · intro pt some
        exact absurd (items pt).symm some
      · intro pt _
        rw [sendAuth, if_pos (type pt), sent]
      · rw [connectionSocks4ProxyConnect, sent]
        split
        · exact Step.noConfusion
        · simp
      · by_cases pluggable : connGetProxyType tor l.addrport = .pluggable
        · rw [sendAuth, if_pos pluggable, sent]
          exact Step.noConfusion
        · exact sendAuth_global auth pluggable
  | some args' =>
      rw [args, Option.map_some] at sent
      have some := described.some args' args
      rw [args, Option.getD_some] at items noNul decodes
      have short := described.short
      rw [args, Option.getD_some] at short
      have text : ptStringifySocksArgs args' ≠ [] := by
        refine stringify_ne_nil ?_ some
        have all := described.keyValue
        rwa [args, Option.getD_some] at all
      have auths (pluggable : connGetProxyType tor l.addrport = .pluggable) :=
        sendAuth_args pluggable sent text short noNul
      have ids {a : Nat} (inet : l.addrport.1 = .inet a) (pluggable : connGetProxyType tor l.addrport = .pluggable) :=
        connectionSocks4_args inet pluggable sent text noNul
      refine ⟨getProxyAddrport_ofLine bridge plugin, ?_, ?_, ?_, ?_, ?_⟩
      · intro pt a inet
        obtain ⟨bytes, step, id⟩ := ids inet (type pt)
        exact ⟨bytes, step, by rw [id, decodes, items pt]⟩
      · intro pt _
        constructor
        · rw [offersAuth, type pt, getSocksArgsByBridgeAddrport, bridge]
          simp [BridgeInfo.ofLine, args]
        · obtain ⟨bytes, user, pass, step, read, u, p, joined⟩ := auths (type pt)
          exact ⟨bytes, user, pass, step, read, u, p, by rw [joined, decodes, items pt]⟩
      · intro pt none
        exact absurd ((items pt).trans none) some
      · cases inet : l.addrport.1 with
        | inet6 words =>
            rw [connectionSocks4ProxyConnect, inet]
            exact Step.noConfusion
        | inet a =>
            by_cases pluggable : connGetProxyType tor l.addrport = .pluggable
            · obtain ⟨bytes, step, -⟩ := ids inet pluggable
              rw [step]
              exact Step.noConfusion
            · rw [connectionSocks4ProxyConnect, inet]
              simp [pluggable]
      · by_cases pluggable : connGetProxyType tor l.addrport = .pluggable
        · obtain ⟨bytes, user, pass, step, -⟩ := auths pluggable
          rw [step]
          exact Step.noConfusion
        · exact sendAuth_global auth pluggable

end Served

/-- Lines reach the transport after a configuration exactly when it has bridges, or none were there before it, and
no line names a transport without there being plugins. -/
theorem lines_reach_transport (done : List Config) (c : Config) :
    Reached c (bridgesAfter (done ++ [c])) ↔ Applies done c := by
  constructor
  · intro reached
    constructor
    · intro none
      have current := reached.current
      rw [bridgesAfter_concat, Config.lines_eq_nil.mpr none, optionsAct, if_pos rfl] at current
      exact bridgesAfter_eq_nil.mp (List.perm_nil.mp current)
    · intro off l last
      obtain ⟨line, mem, parsed⟩ := List.mem_filterMap.mp (mem_of_mem_lastLines last)
      have proxy := (reached.served [] line l mem parsed last).proxy
      cases named : l.transportName with
      | none => rfl
      | some name =>
          rw [getProxyAddrport, proxyOf, named, off, if_neg Bool.false_ne_true] at proxy
          cases proxy
  · intro applies
    have current : bridgesAfter (done ++ [c]) ~ (lastLines c.lines).map .ofLine := by
      rw [bridgesAfter_concat]
      by_cases none : c.lines = []
      · rw [none, optionsAct, if_pos rfl, bridgesAfter_eq_nil.mpr (applies.emptied (Config.lines_eq_nil.mp none))]
        exact .refl _
      · exact optionsAct_perm none _
    refine ⟨current, fun transports line l mem parsed last => ?_⟩
    exact served_of_bridge (getConfiguredBridge_ofLine current last) c.auth (parseBridgeLine_described parsed)
      fun off => applies.plugged off l last

def noProxy (clientTransportPlugin : Bool) : Options := ⟨clientTransportPlugin, none, none, none, none, none, none⟩

def bridgeConfig (line : Text) (parsed : (parseBridgeLine line).isSome = true) : Config :=
  ⟨noProxy false, [line], rfl, List.forall_mem_singleton.mpr parsed⟩

/-- The bridge of a line stays after the line is taken out. -/
theorem lines_not_reached : ¬ ∀ (done : List Config) (c : Config), Reached c (bridgesAfter (done ++ [c])) := by
  intro all
  have reached := all [bridgeConfig "obfs4 192.0.2.1:80".toList (by decide)] ⟨noProxy false, [], rfl, List.forall_mem_nil _⟩
  have current := List.perm_nil.mp reached.current
  revert current
  decide

end TorJet.Bridges
