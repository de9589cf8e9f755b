import TracePropagation.Http.Gateway
import TracePropagation.Proofs.IndexedKeys
import TracePropagation.Proofs.CloudHeader

/-!
# Host names read from a `Host` header

A request names its server in the `Host` header, as a host and, after a colon, a port; a
proxy may list several, separated by commas, and only the first is read. Its text, trimmed, is
cut at its first colon. For a registered name or an IPv4 address, which have no colon, that is
the colon before the port, so the host and the port come back as written, and without a port
the scheme gives it. A bracketed IPv6 literal has colons of its own and is cut inside its
brackets.

* `Http.HostName` — a host with no blank, comma or colon, as registered names and IPv4
  addresses are spelled;
* `Http.FirstElement` — the text of a header before its first comma;
* `Http.baseAttributes_some` — the server's attributes are its address and, when known, its
  port;
* `Http.hostAndPort_of_hostName` — a host name, with or without a port, is read back with the
  port written or the scheme's, and recorded as the server's address and port;
* `Http.hostAndPort_bracketed_literal` — a bracketed IPv6 literal is cut at its first colon.
-/

namespace TracePropagation.Http

open Text

/-- A host as a registered name or an IPv4 address spells it in a `Host` header: not empty,
with no blank, no comma and no colon. -/
def HostName (host : List Char) : Prop :=
  host ≠ [] ∧ ∀ c ∈ host, isBlank c = false ∧ c ≠ ',' ∧ c ≠ ':'

instance : DecidablePred HostName := fun host =>
  inferInstanceAs (Decidable (host ≠ [] ∧ ∀ c ∈ host, isBlank c = false ∧ c ≠ ',' ∧ c ≠ ':'))

/-- A host name checked character by character. -/
theorem hostName_of_all {host : List Char} (hne : host ≠ [])
    (h : host.all (fun c => !isBlank c && c != ',' && c != ':') = true) : HostName host := by
  refine ⟨hne, fun c hc => ?_⟩
  simpa [and_assoc] using List.all_eq_true.mp h c hc

/-- `element` is the first of the comma-separated elements of `header`: the text before its
first comma, or all of it when it has none. -/
def FirstElement (element : List Char) (header : String) : Prop :=
  ',' ∉ element ∧ ∃ rest, header.toList = element ++ rest ∧ (rest = [] ∨ rest.head? = some ',')

/-! ## Reading the parts -/

theorem isBlank_of_isDigit {c : Char} (h : c.isDigit) : isBlank c = false := by
  have hc := Char.isDigit_iff_toNat.mp h
  simp only [Char.reduceToNat] at hc
  simp only [isBlank, Bool.or_eq_false_iff, Bool.and_eq_false_iff, beq_eq_false_iff_ne,
    decide_eq_false_iff_not, ne_eq]
  omega

/-- The canonical decimal spelling of a number below the bound reads back as the number. -/
theorem readUnsigned_toDigits {n bound : Nat} (h : n < bound) :
    readUnsigned 10 bound (Nat.toDigits 10 n) = some n := by
  obtain ⟨c, cs, hcs⟩ := List.exists_cons_of_ne_nil (Nat.toDigits_ne_nil : Nat.toDigits 10 n ≠ [])
  -- a digit is no plus sign, so the whole spelling is read as digits
  have hc : c ≠ '+' := by
    rintro rfl
    exact absurd (isDigit_of_mem_toDigits (hcs ▸ List.mem_cons_self)) (by decide)
  rw [hcs, readUnsigned_cons cs hc, ← hcs, digitsValue_toDigits, Option.filter_some,
    decide_eq_true h, if_pos rfl]

theorem splitOnce_eq_none {sep : Char} {cs : List Char} (h : sep ∉ cs) : splitOnce sep cs = none := by
  cases hs : splitOnce sep cs with
  | none => rfl
  | some p =>
    obtain ⟨hcs, -⟩ := splitOnce_eq_some hs
    exact absurd (hcs ▸ List.mem_append_right _ List.mem_cons_self) h

/-- The first piece of a header cut at its commas is its first element. -/
theorem headD_pieces {element : List Char} {header : String} (h : FirstElement element header) :
    (pieces ',' header.toList).headD [] = element := by
  obtain ⟨hcomma, rest, hheader, hrest⟩ := h
  rw [pieces, hheader]
  rcases hrest with rfl | hrest
  · rw [List.append_nil, List.splitOn_eq_singleton hcomma]
    rfl
  · obtain ⟨r, rfl⟩ : ∃ r, rest = ',' :: r := by
      cases rest with
      | nil => simp at hrest
      | cons c r => exact ⟨r, by simpa using hrest⟩
    rw [List.splitOn_append_cons_self_of_not_mem hcomma]
    rfl

/-- The first element, trimmed, is cut at its first colon into host and port. -/
theorem hostAndPort_of_colon {element host port : List Char} {header : String}
    (hfirst : FirstElement element header) (htrim : trim element = host ++ ':' :: port)
    (hhost : ':' ∉ host) (scheme : Option String) :
    hostAndPort scheme header = (String.ofList host, readUnsigned 10 65536 port) := by
  rw [hostAndPort, headD_pieces hfirst, htrim, splitOnce_append_cons _ hhost]

/-- Without a colon, the first element, trimmed, is the host, and the scheme gives the port. -/
theorem hostAndPort_of_no_colon {element : List Char} {header : String}
    (hfirst : FirstElement element header) (hcolon : ':' ∉ trim element) (scheme : Option String) :
    hostAndPort scheme header = (String.ofList (trim element), defaultPort scheme) := by
  rw [hostAndPort, headD_pieces hfirst, splitOnce_eq_none hcolon]

/-- The port a scheme gives when the header names none: 80 for `http`, 443 for `https`. -/
theorem defaultPort_eq (scheme : Option String) :
    defaultPort scheme =
      if scheme = some "http" then some 80 else if scheme = some "https" then some 443 else none := by
  unfold defaultPort
  split <;> simp_all

/-! ## The server's attributes -/

/-- A request with a `Host` header records the server's address and, when known, its port,
after the attributes it has without one. -/
theorem baseAttributes_some (scheme target : Option String) (method header : String) :
    baseAttributes scheme target method (some header) =
      baseAttributes scheme target method none ++
        Attribute.text "server.address" (hostAndPort scheme header).1 ::
          (hostAndPort scheme header).2.elim [] fun p => [Attribute.int "server.port" p] := by
  simp only [baseAttributes, List.append_nil]
  cases (hostAndPort scheme header).2 <;> rfl

/-! ## Host names -/

section HostName

variable {host : List Char} (hhost : HostName host)
include hhost

theorem trim_hostName {element : List Char} (hpad : CloudTrace.Padded host element) :
    trim element = host :=
  CloudTrace.trim_padded (fun c hc => (hhost.2 c hc).1) hhost.1 hpad

theorem trim_hostName_port {port : Nat} {element : List Char}
    (hpad : CloudTrace.Padded (host ++ ':' :: Nat.toDigits 10 port) element) :
    trim element = host ++ ':' :: Nat.toDigits 10 port := by
  refine CloudTrace.trim_padded (fun c hc => ?_) (by simp) hpad
  rcases List.mem_append.mp hc with hc | hc
  · exact (hhost.2 c hc).1
  · rcases List.mem_cons.mp hc with rfl | hc
    · decide
    · exact isBlank_of_isDigit (isDigit_of_mem_toDigits hc)

theorem colon_not_mem : ':' ∉ host :=
  fun hc => (hhost.2 ':' hc).2.2 rfl

/-- **Host names read back.** Whatever the scheme, a header whose first element is, up to
blanks around it, a host name reads as that host, with the port written after a colon when
there is one, in canonical decimal below 65536, and otherwise with 80 for `http`, 443 for
`https` and no port for any other scheme; the request records the host as the server's address
and the port, when known, as its port. -/
theorem hostAndPort_of_hostName (scheme target : Option String) (method : String)
    {header : String} {element : List Char} (hfirst : FirstElement element header) :
    (CloudTrace.Padded host element →
      let port := if scheme = some "http" then some 80
        else if scheme = some "https" then some 443 else none
      hostAndPort scheme header = (String.ofList host, port) ∧
      baseAttributes scheme target method (some header) =
        baseAttributes scheme target method none ++
          Attribute.text "server.address" (String.ofList host) ::
            port.elim [] fun p => [Attribute.int "server.port" p]) ∧
    (∀ port, port < 65536 →
      CloudTrace.Padded (host ++ ':' :: Nat.toDigits 10 port) element →
      hostAndPort scheme header = (String.ofList host, some port) ∧
      baseAttributes scheme target method (some header) =
        baseAttributes scheme target method none ++
          [Attribute.text "server.address" (String.ofList host),
            Attribute.int "server.port" port]) := by
  constructor
  · intro hpad
    have hread : hostAndPort scheme header = (String.ofList host, defaultPort scheme) := by
      have htrim := trim_hostName hhost hpad
      rw [hostAndPort_of_no_colon hfirst (htrim ▸ colon_not_mem hhost), htrim]
    rw [← defaultPort_eq]
    exact ⟨hread, by rw [baseAttributes_some, hread]⟩
  · intro port hport hpad
    have hread : hostAndPort scheme header = (String.ofList host, some port) := by
      rw [hostAndPort_of_colon hfirst (trim_hostName_port hhost hpad) (colon_not_mem hhost),
        readUnsigned_toDigits hport]
    refine ⟨hread, ?_⟩
    rw [baseAttributes_some, hread]
    rfl

end HostName

/-- A host name with a port, listed first before a proxy's. -/
theorem hostAndPort_of_hostName_listed :
    HostName "example.com".toList ∧
      FirstElement "example.com:8080".toList "example.com:8080, proxy.example.com" ∧
      hostAndPort (some "https") "example.com:8080, proxy.example.com" =
        ("example.com", some 8080) := by
  have hhost : HostName "example.com".toList := hostName_of_all (by simp) (by decide)
  have hfirst : FirstElement "example.com:8080".toList "example.com:8080, proxy.example.com" :=
    ⟨by decide +kernel, ", proxy.example.com".toList, by decide +kernel, Or.inr rfl⟩
  have hpad : CloudTrace.Padded ("example.com".toList ++ ':' :: Nat.toDigits 10 8080)
      "example.com:8080".toList :=
    ⟨[], [], by simp, by simp, by decide +kernel⟩
  exact ⟨hhost, hfirst,
    ((hostAndPort_of_hostName hhost (some "https") none "GET" hfirst).2 8080 (by decide) hpad).1⟩

/-- A bracketed IPv6 literal is cut at the first colon inside its brackets: the host read is
the opening bracket and the port is unknown. -/
theorem hostAndPort_bracketed_literal :
    hostAndPort (some "https") "[::1]:8080" = ("[", none) := by
  decide

end TracePropagation.Http
