import Mathlib.Algebra.Ring.Int.Defs
import Mathlib.Data.Bool.AllAny
import TuyaOpen.Common.ErrorCode
import TuyaOpen.Lib.CStr

/-!
# The URL of a session

`http_session.c`: `http_parse_url` looks for the end of the host, for the port and for the path,
each from the beginning of the host on.
-/

namespace TuyaOpen.Http

open CStr Scan

abbrev slash : UInt8 := 0x2f
abbrev colon : UInt8 := 0x3a

/-- `https://`. -/
def httpsPrefix : List UInt8 := [0x68, 0x74, 0x74, 0x70, 0x73, 0x3a, 0x2f, 0x2f]

/-- `http://`. -/
def httpPrefix : List UInt8 := [0x68, 0x74, 0x74, 0x70, 0x3a, 0x2f, 0x2f]

def defaultHttpPort : ℕ := 80
def defaultHttpsPort : ℕ := 443

structure ParsedUrl where
  host : List UInt8
  path : List UInt8
  port : ℕ
  useTls : Bool
  deriving DecidableEq

/-- The pointer moves behind the scheme. -/
def parseScheme (url : List UInt8) : Bool × ℕ × List UInt8 :=
  if strncmpEq url httpsPrefix 8 then (true, defaultHttpsPort, url.drop 8)
  else if strncmpEq url httpPrefix 7 then (false, defaultHttpPort, url.drop 7)
  else (false, defaultHttpPort, url)

/-- `host_end`, from the beginning of the host. -/
def hostEnd (url : List UInt8) : ℕ :=
  match strchr url slash with
  | some i => i
  | none => (strchr url colon).getD url.length

/-- The host, and the port if there is one in front of `host_end`. -/
def parseHost (url : List UInt8) (port : ℕ) : List UInt8 × ℕ :=
  match strchr url colon with
  | some portStart =>
      if portStart < hostEnd url then
        (url.take portStart, (atoi (url.drop (portStart + 1)) % 2 ^ 16).toNat)
      else (url.take (hostEnd url), port)
  | none => (url.take (hostEnd url), port)

def parsePath (url : List UInt8) : List UInt8 :=
  if url[hostEnd url]? = some slash then url.drop (hostEnd url) else [slash]

/-- `http_parse_url`, with whether there is memory for the host and for the path. -/
def httpParseUrl (hostAlloc pathAlloc : Bool) (url : List UInt8) : Except OperateRet ParsedUrl :=
  let (useTls, port, url) := parseScheme url
  if hostAlloc = false then .error oprtMallocFailed
  else if pathAlloc = false then .error oprtMallocFailed
  else
    let (host, port) := parseHost url port
    .ok ⟨host, parsePath url, port, useTls⟩

/-! ## URLs -/

inductive Scheme where
  | none
  | http
  | https
  deriving DecidableEq

def Scheme.text : Scheme → List UInt8
  | none => []
  | http => httpPrefix
  | https => httpsPrefix

def Scheme.port : Scheme → ℕ
  | https => defaultHttpsPort
  | _ => defaultHttpPort

/-- `[http://|https://]host[:port][/rest]`; the port is given by its digits. -/
structure SessionUrl where
  scheme : Scheme
  host : List UInt8
  port : Option (List UInt8)
  rest : Option (List UInt8)
  host_slash : slash ∉ host
  host_colon : colon ∉ host
  port_digits : ∀ ds ∈ port, ds ≠ [] ∧ ∀ b ∈ ds, isDigit b = true
  port_range : ∀ ds ∈ port, 1 ≤ number ds ∧ number ds ≤ 65535

namespace SessionUrl

variable (u : SessionUrl)

def portText : List UInt8 := u.port.elim [] (colon :: ·)

def restText : List UInt8 := u.rest.elim [] (slash :: ·)

/-- What stands behind the scheme. -/
def body : List UInt8 := u.host ++ (u.portText ++ u.restText)

def text : List UInt8 := u.scheme.text ++ u.body

/-- The URL means this port. -/
def meantPort : ℕ := (u.port.map number).getD u.scheme.port

/-- What the URL says. -/
def meant : ParsedUrl where
  host := u.host
  path := slash :: u.rest.getD []
  port := u.meantPort
  useTls := decide (u.scheme = .https)

/-! ## The scheme -/

theorem slash_notMem_portText : slash ∉ u.portText := by
  unfold portText
  cases hport : u.port with
  | none => exact List.not_mem_nil
  | some ds =>
      obtain ⟨-, hdigit⟩ := u.port_digits ds hport
      apply List.not_mem_cons_of_ne_of_not_mem (by decide)
      intro hmem
      exact absurd (hdigit _ hmem) (by decide)

theorem slash_notMem_front : slash ∉ u.host ++ u.portText := by
  rw [List.mem_append, not_or]
  exact ⟨u.host_slash, u.slash_notMem_portText⟩

theorem not_prefix_body {w : List UInt8} (hslash : slash ∉ w) (hcolon : colon ∉ w) :
    ¬w ++ [colon, slash, slash] <+: u.body := by
  rintro ⟨t, ht⟩
  have hbody : u.host ++ (u.portText ++ u.restText) = w ++ colon :: slash :: slash :: t := by
    simpa [body] using ht.symm
  cases hport : u.port with
  | some ds =>
      obtain ⟨hne, hdigit⟩ := u.port_digits ds hport
      have hport' : u.portText = colon :: ds := by simp [portText, hport]
      rw [hport', List.cons_append] at hbody
      obtain ⟨-, hds⟩ := append_cons_inj u.host_colon hcolon hbody
      obtain ⟨b, ds, rfl⟩ := List.exists_cons_of_ne_nil hne
      have hb : b = slash := (List.cons.inj hds).1
      exact absurd (hdigit b List.mem_cons_self) (by rw [hb]; decide)
  | none =>
      have hport' : u.portText = [] := by simp [portText, hport]
      rw [hport', List.nil_append] at hbody
      cases hrest : u.rest with
      | none =>
          apply u.host_colon
          have hhost : u.host = w ++ colon :: slash :: slash :: t := by
            simpa [restText, hrest] using hbody
          simp [hhost]
      | some r =>
          have hfront : slash ∉ w ++ [colon] := by
            simpa [slash, colon] using hslash
          have hslashes : u.host ++ slash :: r = (w ++ [colon]) ++ slash :: slash :: t := by
            simpa [restText, hrest] using hbody
          obtain ⟨hhost, -⟩ := append_cons_inj u.host_slash hfront hslashes
          apply u.host_colon
          simp [hhost]

theorem parseScheme_text :
    parseScheme u.text = (decide (u.scheme = .https), u.scheme.port, u.body) := by
  have hhttps : ∀ s, strncmpEq s httpsPrefix 8 = true ↔ httpsPrefix <+: s :=
    fun s ↦ @strncmpEq_iff httpsPrefix [] s (by decide)
  have hhttp : ∀ s, strncmpEq s httpPrefix 7 = true ↔ httpPrefix <+: s :=
    fun s ↦ @strncmpEq_iff httpPrefix [] s (by decide)
  unfold parseScheme text
  cases hscheme : u.scheme with
  | https =>
      have hprefix : httpsPrefix <+: Scheme.text .https ++ u.body := List.prefix_append _ _
      rw [if_pos ((hhttps _).mpr hprefix)]
      rfl
  | http =>
      have hnot : ¬httpsPrefix <+: Scheme.text .http ++ u.body := by
        rintro ⟨t, ht⟩
        -- The fifth byte is a colon, not an `s`.
        have hbyte := congrArg (fun s ↦ s[4]?) ht
        simp [Scheme.text, httpPrefix, httpsPrefix] at hbyte
      have hprefix : httpPrefix <+: Scheme.text .http ++ u.body := List.prefix_append _ _
      rw [if_neg (mt (hhttps _).mp hnot), if_pos ((hhttp _).mpr hprefix)]
      rfl
  | none =>
      have hnot : ¬httpsPrefix <+: Scheme.text .none ++ u.body :=
        u.not_prefix_body (w := [0x68, 0x74, 0x74, 0x70, 0x73]) (by decide) (by decide)
      have hnot' : ¬httpPrefix <+: Scheme.text .none ++ u.body :=
        u.not_prefix_body (w := [0x68, 0x74, 0x74, 0x70]) (by decide) (by decide)
      rw [if_neg (mt (hhttps _).mp hnot), if_neg (mt (hhttp _).mp hnot')]
      rfl

/-! ## The host, the port and the path -/

theorem strchr_slash_some {r : List UInt8} (h : u.rest = some r) :
    strchr u.body slash = some (u.host ++ u.portText).length := by
  have hbody : u.body = (u.host ++ u.portText) ++ slash :: r := by
    simp [body, restText, h]
  rw [hbody]
  exact strchr_append u.slash_notMem_front r

theorem strchr_slash_none (h : u.rest = none) : strchr u.body slash = none := by
  have hbody : u.body = u.host ++ u.portText := by
    simp [body, restText, h]
  rw [hbody]
  exact strchr_eq_none u.slash_notMem_front

theorem strchr_colon_some {ds : List UInt8} (h : u.port = some ds) :
    strchr u.body colon = some u.host.length := by
  have hbody : u.body = u.host ++ colon :: (ds ++ u.restText) := by
    simp [body, portText, h]
  rw [hbody]
  exact strchr_append u.host_colon _

theorem hostEnd_body :
    hostEnd u.body = if u.rest.isSome then (u.host ++ u.portText).length else u.host.length := by
  unfold hostEnd
  cases hrest : u.rest with
  | some r => simp [u.strchr_slash_some hrest]
  | none =>
      rw [u.strchr_slash_none hrest]
      cases hport : u.port with
      | some ds => simp [u.strchr_colon_some hport]
      | none =>
          have hbody : u.body = u.host := by
            simp [body, portText, restText, hport, hrest]
          simp [hbody, strchr_eq_none u.host_colon]

theorem parsePath_body : parsePath u.body = u.meant.path := by
  unfold parsePath meant
  rw [u.hostEnd_body]
  cases hrest : u.rest with
  | some r =>
      have hbody : u.body = (u.host ++ u.portText) ++ slash :: r := by
        simp [body, restText, hrest]
      rw [hbody]
      simp
  | none =>
      have hnot : u.body[u.host.length]? ≠ some slash := by
        intro hget
        have hmem : slash ∈ u.body := List.mem_of_getElem? hget
        have hbody : u.body = u.host ++ u.portText := by
          simp [body, restText, hrest]
        exact u.slash_notMem_front (hbody ▸ hmem)
      simp [hnot]

theorem head_restText : ∀ b ∈ u.restText.head?, isDigit b = false := by
  unfold restText
  cases u.rest with
  | none => simp
  | some r =>
      intro b hb
      obtain rfl : slash = b := by simpa using hb
      decide

theorem atoi_port {ds : List UInt8} (h : u.port = some ds) :
    (atoi (ds ++ u.restText) % 2 ^ 16).toNat = number ds := by
  obtain ⟨hne, hdigit⟩ := u.port_digits ds h
  obtain ⟨-, hrange⟩ := u.port_range ds h
  rw [atoi_digits hne hdigit u.head_restText]
  omega

theorem parseHost_body (port : ℕ) :
    parseHost u.body port =
      (u.host, if u.rest.isSome then (u.port.map number).getD port else port) := by
  have htake : u.body.take u.host.length = u.host := by simp [body]
  unfold parseHost
  cases hport : u.port with
  | none =>
      have hend : hostEnd u.body = u.host.length := by
        rw [u.hostEnd_body]
        simp [portText, hport]
      cases hcolon : strchr u.body colon with
      | none => simp [hend, htake]
      | some i =>
          -- The colon stands in the path.
          have hlate : ¬i < u.host.length := by
            rw [body, strchr_append_of_notMem u.host_colon] at hcolon
            obtain ⟨j, -, rfl⟩ := Option.map_eq_some_iff.mp hcolon
            omega
          simp [hend, htake, hlate]
  | some ds =>
      rw [u.strchr_colon_some hport, u.hostEnd_body]
      cases hrest : u.rest with
      | none => simp [htake]
      | some r =>
          have hlength : u.host.length < (u.host ++ u.portText).length := by
            simp [portText, hport]
          have hdrop : u.body.drop (u.host.length + 1) = ds ++ u.restText := by
            have hbody : u.body = (u.host ++ [colon]) ++ (ds ++ u.restText) := by
              simp [body, portText, hport]
            rw [hbody]
            exact List.drop_left' (by simp)
          simp only [Option.isSome_some, if_true, if_pos hlength, htake, hdrop, u.atoi_port hport]
          rfl

/-- With memory for both texts the URL is read as it is meant. -/
def ParsedAsMeant : Prop := httpParseUrl true true u.text = .ok u.meant

theorem httpParseUrl_text :
    httpParseUrl true true u.text =
      .ok { u.meant with port := if u.rest.isSome then u.meantPort else u.scheme.port } := by
  unfold httpParseUrl
  rw [u.parseScheme_text]
  dsimp only
  rw [u.parseHost_body, u.parsePath_body]
  rfl

end SessionUrl

/-- A port is only read in front of a path. -/
theorem http_parse_url_iff (u : SessionUrl) :
    u.ParsedAsMeant ↔
      u.rest.isSome ∨ u.port = none ∨ u.port.map number = some u.scheme.port := by
  unfold SessionUrl.ParsedAsMeant
  rw [u.httpParseUrl_text]
  have hport : ∀ port, Except.ok { u.meant with port := port } =
      (Except.ok u.meant : Except OperateRet ParsedUrl) ↔ port = u.meantPort := by
    intro port
    simp [SessionUrl.meant]
  rw [hport]
  unfold SessionUrl.meantPort
  cases u.rest with
  | some r => simp
  | none =>
      cases u.port with
      | none => simp
      | some ds => simp [eq_comm]

/-- `http://a:8080`. -/
def portOnly : SessionUrl where
  scheme := .http
  host := [0x61]
  port := some [0x38, 0x30, 0x38, 0x30]
  rest := none
  host_slash := by decide
  host_colon := by decide
  port_digits := by
    rintro _ ⟨⟩
    exact ⟨by decide, List.all_iff_forall_prop.mp rfl⟩
  port_range := by decide

/-- It is read with port 80. -/
theorem port_without_path : ¬portOnly.ParsedAsMeant := by
  unfold SessionUrl.ParsedAsMeant
  decide

end TuyaOpen.Http
