import TorJet.Net.Address

/-!
# The HTTP tunnel

`fetch_from_buf_http` takes a request out of the input buffer of a connection, and
`connection_ap_process_http_connect` turns it into a stream request.
-/

namespace TorJet.Tunnel
open Base Net

def endOfHeaders : Text := "\r\n\r\n".toList

def contentLengthHeader : Text := "\r\nContent-Length: ".toList

inductive ContentLength
  | missing
  | malformed
  | found (n : Nat)
  deriving DecidableEq

def bufHttpFindContentLength (headers : Text) : ContentLength :=
  match findString contentLengthHeader headers with
  | none => .missing
  | some p =>
      let value := headers.drop (p + contentLengthHeader.length)
      if '\n' ∉ value then .malformed
      else
        let lenStr := cstr (value.takeWhile (· ≠ '\n'))
        let (result, eos) := torParseUint64 lenStr 0 (2 ^ 31 - 1)
        match result with
        | none => .malformed
        | some n => if eos.all torIsspace then .found n else .malformed

inductive Fetched
  | tooLong
  | notYet
  | message (headers body rest : Text)
  deriving DecidableEq

def fetchFromBufHttp (buf : Text) (maxHeaderlen maxBodylen : Nat) (forceComplete : Bool) : Fetched :=
  if buf = [] then .notYet
  else
    match findString endOfHeaders buf with
    | none => if maxHeaderlen < buf.length then .tooLong else .notYet
    | some crlfOffset =>
        let headerlen := crlfOffset + 4
        let bodylen := buf.length - headerlen
        if maxHeaderlen < crlfOffset ∨ maxHeaderlen ≤ headerlen ∨ maxBodylen ≤ bodylen then .tooLong
        else
          let headers := buf.take headerlen
          let taken (n : Nat) :=
            Fetched.message headers ((buf.drop headerlen).take n) ((buf.drop headerlen).drop n)
          match bufHttpFindContentLength headers with
          | .malformed => .tooLong
          | .missing => taken bodylen
          | .found contentlen =>
              if bodylen < contentlen ∧ !forceComplete then .notYet else taken (min bodylen contentlen)

/-- The URL from the slash on that ends `http://hostname` or `https://hostname`. -/
def skipHost (url : Text) : Text :=
  if strcmpstart url "http".toList then
    let tmp := if (url.drop 4).head? = some 's' then url.drop 5 else url.drop 4
    if strcmpstart tmp "://".toList then
      match (tmp.drop 3).dropWhile (· ≠ '/') with
      | [] => url
      | path => path
    else url
  else url

/-- `parse_http_command`: the command and the URL. -/
def parseHttpCommand (headers : Text) : Option (Text × Text) :=
  let (command, s) := findWhitespace (eatWhitespaceNoNl headers)
  let (url, s) := findWhitespace (eatWhitespaceNoNl s)
  if s = [] then none
  else
    let e := eatWhitespaceNoNl s
    let version := "HTTP/1.".toList
    if strcmpstart e version then
      match scanUnsigned 9999 (e.drop version.length) with
      | some (_, '\r' :: _) => some (command, skipHost url)
      | _ => none
    else none

/-- `http_get_header`; a value without a CR goes on over the next lines. -/
def httpGetHeader (headers which : Text) : Option Text := go true headers
where
  go (lineStart : Bool) : Text → Option Text
    | [] => none
    | c :: rest =>
        if lineStart && strcasecmpstart (c :: rest) which then
          some (((c :: rest).drop which.length).takeWhile (· ≠ '\r'))
        else go (c = '\n') rest

def hostHeaderIsLocalhost (hostValue : Text) : Bool :=
  match torAddrPortSplit hostValue with
  | none => false
  | some (host, _) =>
      if torAddrParseResult host = 0 then (torAddrParse host).any TorAddr.isLoopback
      else strcasecmp host "localhost".toList

/-- What the request leaves in the `socks_request_t`; its command is `SOCKS_COMMAND_CONNECT`. -/
structure SocksRequest where
  address : Text
  port : Nat
  username : Option Text
  password : Option Text
  deriving DecidableEq

def delim : Text := ['\x01', '\xff', '\x01', '\xff']

def tunnelPassword (headers : Text) : Option Text :=
  match httpGetHeader headers "Tor-Stream-Isolation: ".toList,
      httpGetHeader headers "X-Tor-Stream-Isolation: ".toList with
  | none, none => none
  | isolation, xIsolation => some (isolation.getD [] ++ delim ++ xIsolation.getD [])

def maxSocksAddrLen : Nat := 256

section Replies
-- `VERSION`
variable (version : Text)

def torCapabilitiesHeader : Text := "Tor-Capabilities: \r\n".toList

def httpConnectFixedHeaders : Text :=
  torCapabilitiesHeader ++ "Via: tor/1.0 tor-network (tor ".toList ++ version ++ ")\r\n".toList

def httpOtherFixedHeaders : Text :=
  torCapabilitiesHeader ++ "Server: tor/1.0 (tor ".toList ++ version ++ ")\r\n".toList

def httpOptionsReply : Text :=
  "HTTP/1.0 200 OK\r\n".toList ++ "Allow: OPTIONS, CONNECT\r\n".toList ++
    httpOtherFixedHeaders version ++ "\r\n".toList

def httpConnectIsNotAnHttpProxyMsg : Text :=
  "HTTP/1.0 405 Method Not Allowed\r\n".toList ++
    "Content-Type: text/html; charset=iso-8859-1\r\n".toList ++ httpOtherFixedHeaders version ++
    "\r\n".toList ++
    "<html>\n<head>\n<title>This is an HTTP CONNECT tunnel, not a full HTTP Proxy</title>\n</head>\n".toList ++
    "<body>\n<h1>This is an HTTP CONNECT tunnel, not an HTTP proxy.</h1>\n<p>\n".toList ++
    "It appears you have configured your web browser to use this Tor port as\nan HTTP proxy.\n".toList ++
    "</p><p>\nThis is not correct: This port is configured as a CONNECT tunnel, not\n".toList ++
    "an HTTP proxy. Please configure your client accordingly.  You can also\n".toList ++
    "use HTTPS; then the client should automatically use HTTP CONNECT.</p>\n<p>\n".toList ++
    "See <a href=\"https://www.torproject.org/documentation.html\">".toList ++
    "https://www.torproject.org/documentation.html</a> for more information.\n</p>\n</body>\n</html>\n".toList

def errorReply (errmsg headers : Text) : Text := errmsg ++ headers ++ "\r\n".toList

inductive Verdict
  | accept (socks : SocksRequest)
  | reply (errmsg : Text)
  | close
  deriving DecidableEq

/-- `connection_ap_process_http_connect` after the message has been taken from the buffer. -/
def processHeaders (headers : Text) : Verdict :=
  match parseHttpCommand headers with
  | none => .close
  | some (command, addrport) =>
      let hostIsLocalhost := (httpGetHeader headers "Host: ".toList).any hostHeaderIsLocalhost
      if strcasecmp command "options".toList && hostIsLocalhost then .reply (httpOptionsReply version)
      else if !strcasecmp command "connect".toList then
        if hostIsLocalhost then .reply (httpConnectIsNotAnHttpProxyMsg version) else .close
      else
        match torAddrPortSplit addrport with
        | none =>
            .reply (errorReply "HTTP/1.0 400 Bad Request\r\n".toList (httpConnectFixedHeaders version))
        | some (addr, port) =>
            if maxSocksAddrLen ≤ addr.length then
              .reply (errorReply "HTTP/1.0 414 Request-URI Too Long\r\n".toList
                (httpConnectFixedHeaders version))
            else if (httpGetHeader headers "Tor-RPC-Target: ".toList).isSome then
              .reply (errorReply "HTTP/1.0 501 Not implemented (No RPC Support)\r\n".toList
                (httpConnectFixedHeaders version))
            else
              .accept
                { address := addr
                  port
                  username := httpGetHeader headers "Proxy-Authorization: ".toList
                  password := tunnelPassword headers }

end Replies

/-- The state of the connection: `AP_CONN_STATE_HTTP_CONNECT_WAIT`, past it, or marked for close. -/
inductive Phase
  | httpConnectWait
  | accepted (socks : SocksRequest)
  | marked
  deriving DecidableEq

structure EntryConn where
  phase : Phase
  inbuf : Text
  outbuf : Text
  deriving DecidableEq

def EntryConn.new : EntryConn := ⟨.httpConnectWait, [], []⟩

section Run
variable (version : Text)

/-- `connection_ap_process_http_connect`; the body that came with the headers is freed. -/
def connectionApProcessHttpConnect (t : EntryConn) : EntryConn :=
  match fetchFromBufHttp t.inbuf 8192 1024 false with
  | .tooLong => { t with phase := .marked }
  | .notYet => t
  | .message headers _ rest =>
      match processHeaders version (cstr headers) with
      | .accept socks => { t with phase := .accepted socks, inbuf := rest }
      | .reply errmsg => ⟨.marked, rest, t.outbuf ++ errmsg⟩
      | .close => { t with phase := .marked, inbuf := rest }

/-- Bytes arrive and `connection_edge_process_inbuf` looks at them. -/
def EntryConn.read (t : EntryConn) (bytes : Text) : EntryConn :=
  let t' := { t with inbuf := t.inbuf ++ bytes }
  match t.phase with
  | .httpConnectWait => connectionApProcessHttpConnect version t'
  | .accepted _ => t'
  | .marked => t

def EntryConn.run (reads : List Text) : EntryConn := reads.foldl (EntryConn.read version) .new

end Run
end TorJet.Tunnel

/-!
## What the tunnel loses

A request without a `Content-Length` header takes the whole buffer with it: the bytes that arrived in the
read that completes the headers are taken for a body and freed. Later bytes are kept.
-/

namespace TorJet.Tunnel
open Base Net

section Lossless
variable (version : Text)

/-- A CONNECT request of acceptable size, without a `Content-Length` header, that asks for `socks`. -/
structure ConnectHead where
  text : Text
  socks : SocksRequest
  ends : findString endOfHeaders text = some (text.length - 4)
  noLength : bufHttpFindContentLength text = .missing
  fits : text.length < 8192
  valid : processHeaders version (cstr text) = .accept socks

variable {version} (head : ConnectHead version) {reads : List Text} {app : Text}

theorem ConnectHead.four_le : 4 ≤ head.text.length := by
  have le := findString_le head.ends
  have four : endOfHeaders.length = 4 := rfl
  omega

theorem ConnectHead.nonempty : head.text ≠ [] := by
  intro empty
  have le := head.four_le
  rw [empty] at le
  cases le

theorem fetch_part {part rest : Text} (whole : part ++ rest = head.text) (more : rest ≠ []) :
    fetchFromBufHttp part 8192 1024 false = .notYet := by
  have four := head.four_le
  have last : head.text.length - 4 + endOfHeaders.length = head.text.length := Nat.sub_add_cancel four
  have sum := congrArg List.length whole
  rw [List.length_append] at sum
  have small := head.fits
  unfold fetchFromBufHttp
  split
  · rfl
  · rw [findString_short head.ends last whole more]
    exact if_neg (by omega)

theorem fetch_head (early : Text) :
    fetchFromBufHttp (head.text ++ early) 8192 1024 false =
      if 1024 ≤ early.length then .tooLong else .message head.text early [] := by
  have four := head.four_le
  have small := head.fits
  have length : head.text.length - 4 + 4 = head.text.length := Nat.sub_add_cancel four
  unfold fetchFromBufHttp
  rw [if_neg (by simp [head.nonempty]), findString_append head.ends]
  simp only [length, List.length_append, Nat.add_sub_cancel_left, List.take_left, List.drop_left, head.noLength,
    List.take_length, List.drop_length]
  by_cases tooMuch : 1024 ≤ early.length
  · rw [if_pos tooMuch, if_pos (.inr (.inr tooMuch))]
  · rw [if_neg tooMuch, if_neg]
    omega

theorem run_append (before after : List Text) :
    EntryConn.run version (before ++ after) = after.foldl (EntryConn.read version) (EntryConn.run version before) :=
  List.foldl_append

theorem run_waiting {rest : Text} (whole : reads.flatten ++ rest = head.text) (more : rest ≠ []) :
    EntryConn.run version reads = ⟨.httpConnectWait, reads.flatten, []⟩ := by
  induction reads using List.reverseRecOn generalizing rest with
  | nil => rfl
  | append_singleton reads bytes ih =>
      have flat : (reads ++ [bytes]).flatten = reads.flatten ++ bytes := by simp
      rw [flat] at whole ⊢
      have whole' : reads.flatten ++ (bytes ++ rest) = head.text := by rw [← List.append_assoc, whole]
      have before := ih whole' (by simp [more])
      rw [run_append, before]
      simp only [List.foldl_cons, List.foldl_nil, EntryConn.read, connectionApProcessHttpConnect,
        fetch_part head whole more]

theorem foldl_accepted {socks : SocksRequest} {inbuf out : Text} :
    reads.foldl (EntryConn.read version) ⟨.accepted socks, inbuf, out⟩ =
      ⟨.accepted socks, inbuf ++ reads.flatten, out⟩ := by
  induction reads generalizing inbuf with
  | nil => simp
  | cons bytes reads ih =>
      rw [List.foldl_cons, EntryConn.read, ih, List.flatten_cons, List.append_assoc]

theorem foldl_marked {inbuf out : Text} :
    reads.foldl (EntryConn.read version) ⟨.marked, inbuf, out⟩ = ⟨.marked, inbuf, out⟩ := by
  induction reads with
  | nil => rfl
  | cons bytes reads ih => exact ih

theorem exists_completing {text : Text} (nonempty : text ≠ []) (cut : reads.flatten = text ++ app) :
    ∃ before rest early after, reads = before ++ (rest ++ early) :: after ∧ before.flatten ++ rest = text ∧
      rest ≠ [] ∧ early ++ after.flatten = app := by
  induction reads generalizing text with
  | nil =>
      have empty := List.append_eq_nil_iff.mp cut.symm
      exact absurd empty.1 nonempty
  | cons bytes reads ih =>
      rw [List.flatten_cons] at cut
      rcases List.append_eq_append_iff.mp cut with ⟨rest, whole, tail⟩ | ⟨early, bytes_eq, app_eq⟩
      · cases rest with
        | nil => exact ⟨[], text, [], reads, by simp [whole], rfl, nonempty, by simpa using tail⟩
        | cons c rest =>
            obtain ⟨before, last, early, after, split, part, more, later⟩ := ih (List.cons_ne_nil c rest) tail
            refine ⟨bytes :: before, last, early, after, by rw [split, List.cons_append], ?_, more, later⟩
            rw [List.flatten_cons, List.append_assoc, part, whole]
      · exact ⟨[], text, early, reads, by rw [bytes_eq]; rfl, rfl, nonempty, app_eq.symm⟩

theorem run_completed {before after : List Text} {rest early : Text}
    (whole : before.flatten ++ rest = head.text) (more : rest ≠ []) :
    EntryConn.run version (before ++ (rest ++ early) :: after) =
      if 1024 ≤ early.length then ⟨.marked, head.text ++ early, []⟩
      else ⟨.accepted head.socks, after.flatten, []⟩ := by
  have waiting := run_waiting head whole more
  have joined : before.flatten ++ (rest ++ early) = head.text ++ early := by
    rw [← List.append_assoc, whole]
  rw [run_append, waiting, List.foldl_cons]
  simp only [EntryConn.read, connectionApProcessHttpConnect, joined, fetch_head]
  by_cases tooMuch : 1024 ≤ early.length
  · rw [if_pos tooMuch, if_pos tooMuch]
    exact foldl_marked
  · rw [if_neg tooMuch, if_neg tooMuch]
    simp only [head.valid]
    rw [foldl_accepted, List.nil_append]

theorem early_eq_nil_iff {before after : List Text} {text rest early : Text}
    (whole : before.flatten ++ rest = text) (more : rest ≠ []) :
    early = [] ↔ ∃ seen, seen <+: before ++ (rest ++ early) :: after ∧ seen.flatten = text := by
  constructor
  · rintro rfl
    refine ⟨before ++ [rest], ?_, by simp [whole]⟩
    exact ⟨after, by simp⟩
  · rintro ⟨seen, there, same⟩
    have sum := congrArg List.length whole
    rw [List.length_append] at sum
    have positive : 0 < rest.length := List.length_pos_iff.mpr more
    rcases Nat.lt_or_ge before.length seen.length with longer | shorter
    · have ends : before ++ [rest ++ early] <+: seen := by
        apply List.prefix_of_prefix_length_le _ there
        · rw [List.length_append]
          exact longer
        · exact ⟨after, by simp⟩
      have le := ends.flatten.length_le
      rw [same] at le
      simp only [List.flatten_append, List.flatten_singleton, List.length_append] at le
      apply List.length_eq_zero_iff.mp
      omega
    · have ends : seen <+: before := List.prefix_of_prefix_length_le there (List.prefix_append ..) shorter
      have le := ends.flatten.length_le
      rw [same] at le
      omega

/-- The stream gets every application byte exactly when no application byte arrived in the read that
completed the request. -/
theorem tunnel_lossless_iff (cut : reads.flatten = head.text ++ app) :
    ((EntryConn.run version reads).phase = .accepted head.socks ∧ (EntryConn.run version reads).inbuf = app) ↔
      ∃ seen, seen <+: reads ∧ seen.flatten = head.text := by
  obtain ⟨before, rest, early, after, rfl, whole, more, rfl⟩ := exists_completing head.nonempty cut
  rw [run_completed head whole more, ← early_eq_nil_iff whole more]
  split
  · rename_i tooMuch
    constructor
    · rintro ⟨closed, -⟩
      cases closed
    · rintro rfl
      cases tooMuch
  · constructor
    · rintro ⟨-, kept⟩
      exact List.self_eq_append_left.mp kept
    · rintro rfl
      exact ⟨rfl, rfl⟩

/-- A request for `a:1`. -/
def shortHead : ConnectHead [] where
  text := "CONNECT a:1 HTTP/1.0\r\n\r\n".toList
  socks := ⟨['a'], 1, none, none⟩
  ends := by decide
  noLength := by decide
  fits := by decide
  valid := by decide

theorem tunnel_lossless_short :
    ((EntryConn.run [] [shortHead.text, ['x']]).phase = .accepted shortHead.socks ∧
      (EntryConn.run [] [shortHead.text, ['x']]).inbuf = ['x']) ↔
      ∃ seen, seen <+: [shortHead.text, ['x']] ∧ seen.flatten = shortHead.text :=
  tunnel_lossless_iff shortHead (by decide)

/-- An application byte that arrives together with the request is lost. -/
theorem tunnel_loses_byte :
    ¬ ∀ (reads : List Text) (app : Text), reads.flatten = shortHead.text ++ app →
      (EntryConn.run [] reads).phase = .accepted shortHead.socks ∧ (EntryConn.run [] reads).inbuf = app := by
  intro kept
  have lost : (EntryConn.run [] [shortHead.text ++ ['x']]).inbuf = [] := by decide
  have byte := (kept [shortHead.text ++ ['x']] ['x'] rfl).2
  rw [lost] at byte
  cases byte

end Lossless
end TorJet.Tunnel
