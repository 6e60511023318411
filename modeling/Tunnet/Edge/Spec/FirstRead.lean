import Tunnet.Edge.Spec.BasicAuth
import Tunnet.Edge.Tunnel

/-!
# What the first read of a connection decides

The edge looks for credentials, and the agent for the path of a request, in what the first read of a
connection returns, and both treat it as text. Where the read ends is up to the network.

* A request with the configured credentials is forwarded exactly if the first read is UTF-8 and
  reaches to the end of the credentials (`spliced_iff`). Cut off before, the header is missing, or
  its value has fewer characters than the base64 text of the credentials (`inked_of_credentialsOf`).
* All requests of a connection are sent to the target of the path that the first read holds of the
  first one, which may be cut off too (`delivered_iff`).
-/

namespace Tunnet.Edge

open List Str

variable {user password hash : String}

/-! ### Headers -/

/-- The user and the password in the value of an `Authorization` header. -/
def credentialsOf (value : String) : Option (String × String) := do
  let encoded ← (stripPrefix "Basic " value).or (stripPrefix "basic " value)
  let decoded ← Base64.decode (trim encoded)
  let pair ← fromUtf8 decoded
  splitOnce ':' pair

/-- The value of a header line, if it has the name. -/
def headerValue (nameLower line : String) : Option String :=
  match splitOnce ':' (trimEndMatches '\r' line) with
  | none => none
  | some (k, v) => if eqIgnoreAsciiCase (trim k) nameLower then some (trim v) else none

section

variable {nameLower line k v : String} {lines : List String}

theorem findHeader_cons : findHeader nameLower (line :: lines) =
    if line = "" ∨ line = "\r" then none
    else (headerValue nameLower line).or (findHeader nameLower lines) := by
  rw [findHeader, headerValue]
  split_ifs
  · rfl
  · cases splitOnce ':' (trimEndMatches '\r' line) with
    | none => rfl
    | some =>
      dsimp only
      split_ifs <;> rfl

theorem findHeader_cons_of_mem (hcolon : ':' ∈ line.toList) : findHeader nameLower (line :: lines) =
    (headerValue nameLower line).or (findHeader nameLower lines) := by
  rw [findHeader_cons, if_neg]
  rintro (rfl | rfl)
  · exact absurd hcolon (by decide)
  · exact absurd hcolon (by decide)

theorem headerValue_of_notMem (h : ':' ∉ line.toList) : headerValue nameLower line = none := by
  have hsplit : splitOnce ':' (trimEndMatches '\r' line) = none := by
    refine Option.eq_none_iff_forall_ne_some.2 fun ⟨k, v⟩ hsome => h ?_
    refine mem_of_mem_trimEndMatches (c := '\r') ?_
    rw [(splitOnce_eq_some_iff.1 hsome).2]
    simp
  rw [headerValue, hsplit]

theorem findHeader_eq_none (h : ∀ l ∈ lines, headerValue nameLower l = none) :
    findHeader nameLower lines = none := by
  induction lines with
  | nil => rfl
  | cons line lines ih =>
    obtain ⟨hline, hlines⟩ := forall_mem_cons.1 h
    rw [findHeader_cons, hline, ih hlines]
    exact ite_self _

theorem findHeader_append {before : List String} (h : ∀ l ∈ before,
    headerValue nameLower l = none ∧ ':' ∈ l.toList) :
    findHeader nameLower (before ++ lines) = findHeader nameLower lines := by
  induction before with
  | nil => rfl
  | cons line before ih =>
    obtain ⟨⟨hline, hcolon⟩, hbefore⟩ := forall_mem_cons.1 h
    rw [cons_append, findHeader_cons_of_mem hcolon, hline, ih hbefore, Option.none_or]

theorem headerValue_append (hk : ':' ∉ k.toList) : headerValue nameLower (k ++ ":" ++ v) =
    if eqIgnoreAsciiCase (trim k) nameLower then some (trim v) else none := by
  have htrim : trimEndMatches '\r' (k ++ ":" ++ v) = k ++ ":" ++ trimEndMatches '\r' v :=
    trimEndMatches_append (by simp [endsWith])
  have hsplit : splitOnce ':' (k ++ ":" ++ trimEndMatches '\r' v) =
      some (k, trimEndMatches '\r' v) := splitOnce_eq_some_iff.2 ⟨hk, rfl⟩
  rw [headerValue, htrim, hsplit]
  dsimp only
  rw [trim_trimEndMatches (by decide)]

/-- How many characters the value of a header with credentials has. -/
theorem inked_of_credentialsOf {value : String} (h : credentialsOf value = some (user, password)) :
    inked value = 5 + 4 * (((asBytes (user ++ ":" ++ password)).length + 2) / 3) := by
  unfold credentialsOf at h
  simp only [Option.bind_eq_bind, Option.bind_eq_some_iff, Option.or_eq_some_iff] at h
  obtain ⟨encoded, hprefix, bytes, hdecode, pair, hpair, hsplit⟩ := h
  obtain rfl := (splitOnce_eq_some_iff.1 hsplit).2
  obtain rfl := fromUtf8_eq_some_iff.1 hpair
  have hencoded : inked value = 5 + inked encoded := by
    rcases hprefix with hprefix | ⟨-, hprefix⟩
    · rw [stripPrefix_eq_some_iff.1 hprefix, inked_append]
      rfl
    · rw [stripPrefix_eq_some_iff.1 hprefix, inked_append]
      rfl
  rw [hencoded, ← inked_trim encoded, Base64.inked_of_decode hdecode]
  rfl

/-- A header line that is cut off has lost its colon, or only a part of its value. -/
theorem cut_header {q : String} (hk : ':' ∉ k.toList) (h : q.toList <+: (k ++ ":" ++ v).toList) :
    ':' ∉ q.toList ∨ ∃ v', q = k ++ ":" ++ v' ∧ v'.toList <+: v.toList := by
  rcases cut_append h with ⟨hshort, hne⟩ | ⟨x, rfl, hx⟩
  · have hkey := prefix_before (c := ':') hshort hne
    exact .inl fun hmem => hk (hkey.subset hmem)
  · exact .inr ⟨x, rfl, hx⟩

end

/-! ### A request with credentials -/

/-- A request whose head carries the credentials. -/
structure AuthorizedRequest (user password : String) where
  requestLine : String
  /-- The header lines before the one with the credentials. -/
  headers : List (String × String)
  name : String
  value : String
  /-- What stands between the credentials and the end of their line. -/
  blank : String
  /-- What follows this line: the rest of the head, and the body. -/
  rest : Bytes
  lines : ∀ s ∈ requestLine :: name :: value :: blank :: headers.flatMap fun h => [h.1, h.2],
    '\n' ∉ s.toList
  others : ∀ h ∈ headers,
    ':' ∉ h.1.toList ∧ eqIgnoreAsciiCase (trim h.1) "authorization" = false
  named : ':' ∉ name.toList ∧ eqIgnoreAsciiCase (trim name) "authorization"
  carries : credentialsOf (trim value) = some (user, password)
  ends : ∀ c ∈ value.toList.getLast?, isWhitespace c = false
  blanks : ∀ c ∈ blank.toList, isWhitespace c

namespace AuthorizedRequest

variable (r : AuthorizedRequest user password)

def headerLines : List String := r.headers.map fun h => h.1 ++ ":" ++ h.2

/-- The line with the credentials, up to their end. -/
def line : String := r.name ++ ":" ++ r.value

/-- The request up to the end of the credentials. -/
def through : String := unlines (r.requestLine :: r.headerLines) ++ r.line

def bytes : Bytes := asBytes (r.through ++ (r.blank ++ "\r\n")) ++ r.rest

variable {r} {f : String}

theorem notMem_line : '\n' ∉ (r.line ++ r.blank).toList := by
  have hlines := r.lines
  simp [line, hlines]

theorem notMem_before : ∀ l ∈ r.requestLine :: r.headerLines, '\n' ∉ l.toList := by
  have hlines := r.lines
  simp only [forall_mem_cons, mem_flatMap] at hlines
  refine forall_mem_cons.2 ⟨hlines.1, fun l hl => ?_⟩
  obtain ⟨h, hh, rfl⟩ := mem_map.1 hl
  have hname := hlines.2.2.2.2 h.1 ⟨h, hh, by simp⟩
  have hvalue := hlines.2.2.2.2 h.2 ⟨h, hh, by simp⟩
  simp [hname, hvalue]

theorem headerValue_headerLines : ∀ l ∈ r.headerLines,
    headerValue "authorization" l = none ∧ ':' ∈ l.toList := by
  intro l hl
  obtain ⟨h, hh, rfl⟩ := mem_map.1 hl
  obtain ⟨hcolon, hother⟩ := r.others h hh
  rw [headerValue_append hcolon, hother]
  simp

theorem extractHeader_eq : extractHeader (asBytes f) "authorization" =
    findHeader "authorization" ((Str.lines f).drop 1) := by
  have hlower : toAsciiLowercase "authorization" = "authorization" := by decide
  rw [extractHeader, fromUtf8_eq_some_iff.2 rfl, hlower]
  rfl

theorem credentials_eq {value : Option String}
    (h : findHeader "authorization" ((Str.lines f).drop 1) = value) :
    credentials (asBytes f) = value.bind credentialsOf := by
  rw [← h, ← extractHeader_eq]
  rfl

/-- The line with the credentials, if what follows them is cut off somewhere. -/
theorem exists_lines_line {x : String}
    (hx : asBytes x <+: asBytes (r.blank ++ "\r\n") ++ r.rest) :
    ∃ w more, (∀ c ∈ w.toList, isWhitespace c) ∧
      Str.lines (r.line ++ x) = (r.line ++ w) :: more := by
  rcases cut_asBytes hx with ⟨hshort, hne⟩ | ⟨y, rfl, -⟩
  · have hend : r.blank ++ "\r\n" = r.blank ++ "\r" ++ String.singleton '\n' := by
      simp [← String.toList_inj]
    rw [hend] at hshort hne
    have hmem := (prefix_before hshort hne).subset
    have hblank (c) (hc : c ∈ x.toList) : isWhitespace c ∧ c ≠ '\n' := by
      rcases mem_append.1 (String.toList_append ▸ hmem hc) with hc | hc
      · refine ⟨r.blanks c hc, ?_⟩
        rintro rfl
        exact notMem_line (r := r) (by simp [hc])
      · rw [mem_singleton.1 hc]
        decide
    have hline : '\n' ∉ (r.line ++ x).toList := by
      intro h
      rcases mem_append.1 (String.toList_append ▸ h) with h | h
      · exact notMem_line (r := r) (by simp [h])
      · exact (hblank _ h).2 rfl
    refine ⟨x, [], fun c hc => (hblank c hc).1, ?_⟩
    rw [lines_of_notMem hline, if_neg]
    simp [line]
  · rw [← String.append_assoc, ← String.append_assoc, lines_crlf notMem_line]
    exact ⟨r.blank, _, r.blanks, rfl⟩

/-- What holds the request up to the end of the credentials has them. -/
theorem credentials_of_through {x : String}
    (hx : asBytes x <+: asBytes (r.blank ++ "\r\n") ++ r.rest) :
    credentials (asBytes (r.through ++ x)) = some (user, password) := by
  obtain ⟨w, more, hw, hlines⟩ := exists_lines_line hx
  have hvalue : headerValue "authorization" (r.line ++ w) = some (trim r.value) := by
    have happend : r.line ++ w = r.name ++ ":" ++ (r.value ++ w) := String.append_assoc
    rw [happend, headerValue_append r.named.1, if_pos r.named.2, trim_append hw]
  have hfind : findHeader "authorization" ((Str.lines (r.through ++ x)).drop 1) =
      some (trim r.value) := by
    rw [through, String.append_assoc, lines_unlines notMem_before, hlines,
      cons_append, drop_one,
      tail_cons, findHeader_append headerValue_headerLines,
      findHeader_cons_of_mem (by simp [line]), hvalue, Option.some_or]
  rw [credentials_eq hfind, Option.bind_some]
  exact r.carries

/-- A part of the value has fewer characters than the base64 text of the credentials. -/
theorem credentialsOf_cut {v : String} (hv : v.toList <+: r.value.toList) (hne : v ≠ r.value) :
    credentialsOf (trim v) ≠ some (user, password) := by
  intro hcred
  obtain ⟨x, hx⟩ := hv
  have hvalue : r.value = v ++ String.ofList x := by
    rw [← String.toList_inj, ← hx, String.toList_append, String.toList_ofList]
  have hinked : inked v = inked r.value := by
    rw [← inked_trim, inked_of_credentialsOf hcred, ← inked_of_credentialsOf r.carries,
      inked_trim]
  have hzero : inked (String.ofList x) = 0 := by
    rw [hvalue, inked_append] at hinked
    omega
  cases x using List.reverseRecOn with
  | nil => exact hne (by simp [hvalue])
  | append_singleton x c =>
    have hc := r.ends c (by simp [hvalue])
    simp [inked, hc] at hzero

theorem credentials_of_findHeader
    (h : findHeader "authorization" ((Str.lines f).drop 1) = none) :
    credentials (asBytes f) ≠ some (user, password) := by
  rw [credentials_eq h]
  exact nofun

/-- The request ends within the line of the credentials, before their end. -/
theorem credentials_of_cut_line {q : String} (hq : q.toList <+: r.line.toList) (hne : q ≠ r.line) :
    credentials (asBytes (unlines (r.requestLine :: r.headerLines) ++ q)) ≠
      some (user, password) := by
  have hlines : Str.lines (unlines (r.requestLine :: r.headerLines) ++ q) =
      r.requestLine :: r.headerLines ++ if q = "" then [] else [q] := by
    rw [lines_unlines notMem_before, lines_of_notMem fun h => ?_]
    exact notMem_line (r := r) (by simp [hq.subset h])
  have hfind : findHeader "authorization"
      ((Str.lines (unlines (r.requestLine :: r.headerLines) ++ q)).drop 1) =
      findHeader "authorization" (if q = "" then [] else [q]) := by
    rw [hlines, cons_append, drop_one, tail_cons, findHeader_append headerValue_headerLines]
  rcases cut_header r.named.1 hq with hcolon | ⟨v, rfl, hv⟩
  · refine credentials_of_findHeader (hfind.trans (findHeader_eq_none fun l hl => ?_))
    split_ifs at hl with hempty
    · cases hl
    · rw [mem_singleton.1 hl]
      exact headerValue_of_notMem hcolon
  · rw [if_neg (by simp), findHeader_cons_of_mem (by simp), headerValue_append r.named.1,
      if_pos r.named.2, Option.some_or] at hfind
    rw [credentials_eq hfind, Option.bind_some]
    refine credentialsOf_cut hv ?_
    rintro rfl
    exact hne rfl

/-- The request ends within a line before. -/
theorem credentials_of_cut_before {ls rest : List String} {l q : String}
    (hls : r.requestLine :: r.headerLines = ls ++ l :: rest)
    (hq : q.toList <+: (l ++ "\r").toList) :
    credentials (asBytes (unlines ls ++ q)) ≠ some (user, password) := by
  have hmem (l') (hl' : l' ∈ ls ++ [l]) : l' ∈ r.requestLine :: r.headerLines := by
    rw [hls]
    exact (append_sublist_append_left ..).2 (singleton_sublist.2 mem_cons_self) |>.subset hl'
  have hlines : Str.lines (unlines ls ++ q) = ls ++ if q = "" then [] else [q] := by
    rw [lines_unlines fun l' hl' => notMem_before l' (hmem l' (mem_append_left _ hl')),
      lines_of_notMem fun h => ?_]
    have hl := hq.subset h
    simp [notMem_before l (hmem l (by simp))] at hl
  refine credentials_of_findHeader (findHeader_eq_none fun l' hl' => ?_)
  rw [hlines] at hl'
  cases ls with
  | nil => split_ifs at hl' <;> cases hl'
  | cons a ls =>
    rw [cons_append] at hls hl'
    obtain ⟨rfl, hheaders⟩ := cons.inj hls
    rcases mem_append.1 hl' with hl' | hl'
    · exact (headerValue_headerLines l' (hheaders ▸ mem_append_left _ hl')).1
    · split_ifs at hl' with hempty
      · cases hl'
      · rw [mem_singleton.1 hl']
        obtain ⟨h, hh, rfl⟩ := mem_map.1
          (show l ∈ r.headerLines from hheaders ▸ mem_append_right _ mem_cons_self)
        obtain ⟨hcolon, hother⟩ := r.others h hh
        rw [String.append_assoc] at hq
        rcases cut_header hcolon hq with hq | ⟨v, rfl, -⟩
        · exact headerValue_of_notMem hq
        · rw [headerValue_append hcolon, hother]
          rfl

/-- Exactly what holds the request up to the end of the credentials has them. -/
theorem credentials_iff (hf : asBytes f <+: r.bytes) :
    credentials (asBytes f) = some (user, password) ↔
      asBytes r.through <+: asBytes f := by
  have hbytes : r.bytes =
      asBytes r.through ++ (asBytes (r.blank ++ "\r\n") ++ r.rest) := by
    rw [bytes, asBytes_append, append_assoc]
  rw [hbytes] at hf
  rcases cut_asBytes hf with ⟨hshort, hne⟩ | ⟨x, rfl, hx⟩
  · refine iff_of_false ?_ fun hall => hne ?_
    · obtain ⟨ls, q, rfl, ⟨rfl, hq⟩ | ⟨l, rest, hls, hq⟩⟩ := exists_of_cut hshort
      · refine credentials_of_cut_line hq ?_
        rintro rfl
        exact hne rfl
      · exact credentials_of_cut_before hls hq
    · exact String.toList_inj.1 (hshort.eq_of_length_le (prefix_of_asBytes hall).length_le)
  · rw [asBytes_append]
    exact iff_of_true (asBytes_append .. ▸ credentials_of_through hx) (prefix_append _ _)

end AuthorizedRequest

theorem verifyBasicAuth_first {passwords : String → Option String} {first : Bytes}
    {r : AuthorizedRequest user password} (hpassword : passwords hash = some password)
    (hfirst : first <+: r.bytes) : verifyBasicAuth passwords first user hash ↔
      (fromUtf8 first).isSome ∧ asBytes r.through <+: first := by
  rw [verifyBasicAuth_iff]
  simp only [hpassword, Option.some.injEq, exists_eq_left']
  cases htext : fromUtf8 first with
  | none => simp [credentials, extractHeader, htext]
  | some f =>
    obtain rfl := fromUtf8_eq_some_iff.1 htext
    simp [AuthorizedRequest.credentials_iff hfirst]

/-- A request with the configured credentials is forwarded as it is, however the reads split it,
exactly if the first read is UTF-8 and holds the request up to the end of the credentials. -/
theorem spliced_iff {passwords : String → Option String} (r : AuthorizedRequest user password)
    (hpassword : passwords hash = some password) {reads : List Bytes}
    (hreads : reads.flatten = r.bytes) (hnonempty : ∀ read ∈ reads, read ≠ []) :
    (∃ sent, spliceTlsToAgent passwords (some user) (some hash) reads = .spliced sent ∧
      sent.flatten = r.bytes) ↔
    (fromUtf8 (reads.headD [])).isSome ∧ asBytes r.through <+: reads.headD [] := by
  cases reads with
  | nil =>
    rw [← verifyBasicAuth_first hpassword (hreads ▸ nil_prefix), verifyBasicAuth_iff]
    have hnone : credentials [] = none := by decide
    exact iff_of_false nofun fun ⟨_, _, h⟩ => nomatch hnone.symm.trans h
  | cons first reads =>
    obtain ⟨hfirst, hrest⟩ := forall_mem_cons.1 hnonempty
    have hall : reads.takeWhile (· ≠ []) = reads :=
      takeWhile_eq_self_iff.2 fun read hread => decide_eq_true (hrest read hread)
    rw [headD_cons, ← verifyBasicAuth_first hpassword (hreads ▸ prefix_append _ _)]
    unfold spliceTlsToAgent
    dsimp only [headD_cons, tail_cons]
    rw [hall]
    split_ifs with hrefused
    · rw [Bool.eq_false_iff] at hrefused
      exact iff_of_false nofun (hrefused.resolve_left hfirst)
    · rw [not_or, Bool.not_eq_false] at hrefused
      exact iff_of_true ⟨_, rfl, hreads⟩ hrefused.2

namespace Demo

/-- A request of the user `u` with the password `pw`, and a body that is not UTF-8. -/
def authorized : AuthorizedRequest "u" "pw" where
  requestLine := "POST / HTTP/1.1"
  headers := [("Host", " demo.example.com")]
  name := "authorization"
  value := " Basic dTpwdw=="
  blank := ""
  rest := asBytes "Content-Length: 2\r\n\r\n" ++ [0xff, 0xfe]
  lines := by decide
  others := by decide
  named := by decide
  carries := by decide
  ends := by
    intro c hc
    obtain rfl : '=' = c := Option.some.inj hc
    decide
  blanks := by simp

/-- The first read ends right after the credentials, the second one has the body. -/
theorem spliced_in_two_reads : ∃ sent, spliceTlsToAgent some (some "u") (some "pw")
    [asBytes authorized.through,
      asBytes "\r\nContent-Length: 2\r\n\r\n" ++ [0xff, 0xfe]] = .spliced sent ∧
    sent.flatten = authorized.bytes :=
  (spliced_iff authorized rfl (by decide) (by decide)).2 ⟨by decide, prefix_rfl⟩

/-- The request is refused if the first read ends within the password, or if it holds the body. -/
theorem refused_in_two_reads : spliceTlsToAgent some (some "u") (some "pw")
      [authorized.bytes.take 66, authorized.bytes.drop 66] = .unauthorized unauthorizedResponse ∧
    spliceTlsToAgent some (some "u") (some "pw") [authorized.bytes] =
      .unauthorized unauthorizedResponse := by
  unfold spliceTlsToAgent
  exact ⟨if_pos (.inr (by decide)), if_pos (.inr (by decide))⟩

end Demo

/-! ### The requests of a connection -/

/-- A request, whose first line has the method, the target and the version. -/
structure HttpRequest where
  method : String
  target : String
  /-- What follows the target and a space. -/
  rest : Bytes
  method_word : ∀ c ∈ method.toList, isWhitespace c = false
  target_word : ∀ c ∈ target.toList, isWhitespace c = false
  nonempty : method ≠ "" ∧ target ≠ ""

namespace HttpRequest

variable (r : HttpRequest)

def bytes : Bytes := asBytes (r.method ++ " " ++ r.target ++ " ") ++ r.rest

def path : String := before '?' r.target

/-- The path of the request in a text that holds its first `n` characters. -/
def pathWithin (n : ℕ) : Option String :=
  let held := r.target.toList.take (n - (r.method.length + 1))
  if held = [] then none else some (before '?' (String.ofList held))

variable {r} {f q x : String}

theorem pathWithin_append :
    r.pathWithin (r.method ++ " " ++ r.target ++ x).length = some r.path := by
  have hlength : r.target.toList.length ≤
      (r.method ++ " " ++ r.target ++ x).length - (r.method.length + 1) := by
    rw [String.length_append, String.length_append, String.length_append, String.length_toList]
    have hspace : " ".length = 1 := rfl
    omega
  rw [pathWithin, take_of_length_le hlength, String.ofList_toList, if_neg]
  · rfl
  · exact fun h => r.nonempty.2 (String.toList_eq_nil_iff.1 h)

theorem parseHttpPath_of_line {line : String} (hline : (Str.lines f).head? = some line) :
    parseHttpPath (asBytes f) = ((splitWhitespace line)[1]?).map (before '?') := by
  rw [parseHttpPath, fromUtf8_eq_some_iff.2 rfl]
  simp [hline, splitWhitespace_trim, Option.map_eq_bind]

theorem splitWhitespace_method : splitWhitespace (r.method ++ " " ++ x) =
    r.method :: splitWhitespace x := by
  rw [splitWhitespace_space, splitWhitespace_word r.method_word, if_neg r.nonempty.1,
    singleton_append]

theorem notMem_of_word {s : String} (h : ∀ c ∈ s.toList, isWhitespace c = false) :
    '\n' ∉ s.toList := by
  intro hmem
  exact absurd (h _ hmem) (by decide)

/-- The whole target is there. -/
theorem parseHttpPath_append :
    parseHttpPath (asBytes (r.method ++ " " ++ r.target ++ " " ++ x)) = some r.path := by
  have hline : '\n' ∉ (r.method ++ " " ++ r.target ++ " ").toList := by
    simp [notMem_of_word r.method_word, notMem_of_word r.target_word]
  obtain ⟨y, hy⟩ := exists_head?_lines (b := x) hline (by simp)
    ((endsWith_append (by decide)).trans (by decide))
  rw [parseHttpPath_of_line hy, String.append_assoc, String.append_assoc,
    splitWhitespace_method, ← String.append_assoc, splitWhitespace_space,
    splitWhitespace_word r.target_word, if_neg r.nonempty.2]
  rfl

/-- The text ends within the request line, before the end of the target. -/
theorem parseHttpPath_cut (hf : f.toList <+: (r.method ++ " " ++ r.target).toList) :
    parseHttpPath (asBytes f) = r.pathWithin f.length := by
  have hline : '\n' ∉ f.toList := by
    intro h
    have hmem := hf.subset h
    simp [notMem_of_word r.method_word, notMem_of_word r.target_word] at hmem
  by_cases hempty : f = ""
  · subst hempty
    have hnone : parseHttpPath (asBytes "") = none := by decide
    simp [pathWithin, hnone]
  have hhead : (Str.lines f).head? = some f := by
    rw [lines_of_notMem hline, if_neg hempty]
    rfl
  rw [parseHttpPath_of_line hhead, pathWithin]
  rcases cut_append hf with ⟨hshort, hne⟩ | ⟨q, rfl, hq⟩
  · have hmethod := prefix_before (c := ' ') hshort hne
    have hlength : f.length - (r.method.length + 1) = 0 := by
      have hle := hmethod.length_le
      rw [String.length_toList, String.length_toList] at hle
      omega
    rw [hlength, splitWhitespace_word fun c hc => r.method_word c (hmethod.subset hc),
      if_neg hempty]
    rfl
  · have hlength : (r.method ++ " " ++ q).length - (r.method.length + 1) = q.length := by
      have hspace : " ".length = 1 := rfl
      simp [hspace]
    have hheld : r.target.toList.take q.length = q.toList := by
      rw [← String.length_toList, ← prefix_iff_eq_take.1 hq]
    rw [hlength, hheld, splitWhitespace_method,
      splitWhitespace_word fun c hc => r.target_word c (hq.subset hc)]
    by_cases hq : q = ""
    · simp [hq]
    · simp [hq]

/-- The path that the agent finds in what the first read returns. -/
theorem parseHttpPath_first {first more : Bytes} (h : first <+: r.bytes ++ more) :
    parseHttpPath first = (fromUtf8 first).bind fun text => r.pathWithin text.length := by
  cases htext : fromUtf8 first with
  | none => simp [parseHttpPath, htext]
  | some f =>
    rw [fromUtf8_eq_some_iff] at htext
    subst htext
    rw [Option.bind_some]
    rw [bytes, append_assoc] at h
    rcases cut_asBytes h with ⟨hshort, hne⟩ | ⟨x, rfl, -⟩
    · exact parseHttpPath_cut (prefix_before (c := ' ') hshort hne)
    · rw [parseHttpPath_append, String.append_assoc, pathWithin_append]

/-- A text that holds the method and the target has the request's path. -/
theorem pathWithin_of_holds {first : Bytes} (htext : fromUtf8 first = some f)
    (h : asBytes (r.method ++ " " ++ r.target) <+: first) :
    r.pathWithin f.length = some r.path := by
  rw [fromUtf8_eq_some_iff] at htext
  obtain ⟨x, hx⟩ := prefix_of_asBytes (htext ▸ h)
  have hf : f = r.method ++ " " ++ r.target ++ String.ofList x := by
    rw [← String.toList_inj, ← hx]
    simp
  rw [hf, pathWithin_append]

end HttpRequest

section

variable {rules : List RedirectRule} {defaultPort : UInt16} {defaultTarget : SocketAddr}

theorem handleRelayStream_eq (reads : List Bytes) :
    handleRelayStream rules defaultPort defaultTarget reads =
      (targetOf rules defaultPort defaultTarget (parseHttpPath (reads.headD [])),
        reads.flatten) := by
  unfold handleRelayStream
  split_ifs with hnone
  · -- Without rules every path has the default target.
    have hmatch (path : Option String) : path.bind (matchRedirect rules) = none :=
      Option.bind_eq_none_iff.2 fun p _ => by rw [hnone]; rfl
    simp [targetOf, hmatch]
  · cases reads with
    | nil => rfl
    | cons => rfl

variable (rules defaultPort defaultTarget) in
/-- The stream is sent whole, and to an address that is the target of every request in it. -/
def Delivered (reads : List Bytes) (requests : List HttpRequest) : Prop :=
  ∃ addr, handleRelayStream rules defaultPort defaultTarget reads =
      (addr, requests.flatMap HttpRequest.bytes) ∧
    ∀ r ∈ requests, addr = targetOf rules defaultPort defaultTarget r.path

section

variable {reads : List Bytes} {first : HttpRequest} {more : List HttpRequest}
  (hreads : reads.flatten = (first :: more).flatMap HttpRequest.bytes)

include hreads

/-- Every request is sent to its own target exactly if all have the target of the first one, and
what the first read holds of the first request line has it too. The latter is so if the first read
is text and holds the method and the target. -/
theorem delivered_iff :
    (Delivered rules defaultPort defaultTarget reads (first :: more) ↔
      (∀ r ∈ more, targetOf rules defaultPort defaultTarget r.path =
        targetOf rules defaultPort defaultTarget first.path) ∧
      targetOf rules defaultPort defaultTarget
          ((fromUtf8 (reads.headD [])).bind fun text => first.pathWithin text.length) =
        targetOf rules defaultPort defaultTarget first.path) ∧
    ((fromUtf8 (reads.headD [])).isSome →
      asBytes (first.method ++ " " ++ first.target) <+: reads.headD [] →
      (Delivered rules defaultPort defaultTarget reads (first :: more) ↔
        ∀ r ∈ more, targetOf rules defaultPort defaultTarget r.path =
          targetOf rules defaultPort defaultTarget first.path)) := by
  -- The second part is the first one for such a read.
  refine (fun hiff => ⟨hiff, fun htext hheld => ?_⟩) ?_
  · have hfirst : reads.headD [] <+: first.bytes ++ more.flatMap HttpRequest.bytes := by
      rw [← flatMap_cons, ← hreads]
      cases reads with
      | nil => exact nil_prefix
      | cons => exact prefix_append _ _
    rw [Delivered, handleRelayStream_eq, hreads, HttpRequest.parseHttpPath_first hfirst]
    constructor
    · rintro ⟨addr, haddr, hown⟩
      have hseen := congrArg Prod.fst haddr
      have hhead := hown first mem_cons_self
      refine ⟨fun r hr => ?_, hseen.trans hhead⟩
      rw [← hown r (mem_cons_of_mem _ hr), hhead]
    · rintro ⟨hmore, hseen⟩
      refine ⟨_, rfl, fun r hr => ?_⟩
      rcases mem_cons.1 hr with rfl | hr
      · exact hseen
      · rw [hseen, hmore r hr]
  · obtain ⟨text, htext⟩ := Option.isSome_iff_exists.1 htext
    rw [hiff, htext, Option.bind_some, HttpRequest.pathWithin_of_holds htext hheld]
    exact and_iff_left rfl

end

end

namespace Demo

def apiRules : List RedirectRule := [⟨"/api/*", 9000, none⟩]

def localhost : SocketAddr := ⟨.v4 (.new 127 0 0 1), 3000⟩

def get (target : String) (h : target.toList.all fun c => !isWhitespace c)
    (hne : target ≠ "") : HttpRequest where
  method := "GET"
  target := target
  rest := asBytes "HTTP/1.1\r\n\r\n"
  method_word := by
    have hget : "GET".toList.all fun c => !isWhitespace c := by decide
    simpa using hget
  target_word := by simpa using h
  nonempty := ⟨by decide, hne⟩

def getApi : HttpRequest := get "/api/x" (by decide) (by decide)

def getRoot : HttpRequest := get "/" (by decide) (by decide)

/-- The second request on the connection is for the default target. -/
theorem second_request_redirected :
    (handleRelayStream apiRules 3000 localhost [getApi.bytes ++ getRoot.bytes]).1 =
        { localhost with port := 9000 } ∧
      targetOf apiRules 3000 localhost getRoot.path = localhost := by
  decide

def getMore : HttpRequest := get "/api/y?z" (by decide) (by decide)

/-- Two requests for the port of the rule. The first read ends with the first target, and the
second one within the second. -/
def apiReads : List Bytes :=
  [asBytes "GET /api/x", asBytes " HTTP/1.1\r\n\r\nGET /a",
    asBytes "pi/y?z HTTP/1.1\r\n\r\n"]

theorem delivered_in_three_reads :
    apiReads.flatten = [getApi, getMore].flatMap HttpRequest.bytes ∧
      Delivered apiRules 3000 localhost apiReads [getApi, getMore] := by
  have hreads : apiReads.flatten = [getApi, getMore].flatMap HttpRequest.bytes := by decide
  refine ⟨hreads, ((delivered_iff hreads).2 ?_ ?_).2 ?_⟩
  · decide
  · decide
  · decide

end Demo

end Tunnet.Edge
