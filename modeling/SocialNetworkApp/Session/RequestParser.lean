import SocialNetworkApp.Core.Stream
import SocialNetworkApp.Core.Table

/-!
# The session's own parser

`HttpRequestParser` reads the header block of a request.
-/

namespace SocialNetworkApp

open SocialNetworkApp.Core

/-- `HttpRequestParser`, with the fields that `parse` writes. -/
structure HttpRequestParser where
  method : Str := []
  url : Str := []
  httpVersion : Str := []
  headers : Table Str Str := ∅

namespace HttpRequestParser

/-- `get_header`. -/
def getHeader (p : HttpRequestParser) (header : Str) : Str := (p.headers.lookup header).getD []

/-- `parse_request_line`: the words before the one that is missing are kept. -/
def parseRequestLine (p : HttpRequestParser) (line : Str) : Bool × HttpRequestParser :=
  match readWord line with
  | none => (false, p)
  | some (method, line) =>
    match readWord line with
    | none => (false, { p with method := method })
    | some (url, line) =>
      match readWord line with
      | none => (false, { p with method := method, url := url })
      | some (httpVersion, _) =>
        (true, { p with method := method, url := url, httpVersion := httpVersion })

/-- `parse_header_line`. -/
def parseHeaderLine (p : HttpRequestParser) (line : Str) : Bool × HttpRequestParser :=
  match findStr [':'] line with
  | none => (false, p)
  | some colonPos =>
    (true, { p with headers := p.headers.insert (line.take colonPos) (line.drop (colonPos + 1)) })

/-- The loop of `parse` over the lines behind the request line. -/
def parseHeaderLines (p : HttpRequestParser) : List Str → Bool × HttpRequestParser
  | [] => (true, p)
  | line :: rest =>
    if line = ['\r'] then (true, p)
    else match p.parseHeaderLine line with
      | (false, p) => (false, p)
      | (true, p) => p.parseHeaderLines rest

/-- `parse`. -/
def parse (p : HttpRequestParser) (requestHeader : Str) : Bool × HttpRequestParser :=
  match lines requestHeader with
  | [] => (false, p)
  | line :: rest =>
    match p.parseRequestLine line with
    | (false, p) => (false, p)
    | (true, p) => p.parseHeaderLines rest

/-! ### What is read back -/

variable {p : HttpRequestParser}

lemma parseRequestLine_words {method url version rest : Str} (hmethod : IsWord method)
    (hurl : IsWord url) (hversion : IsWord version) (hrest : ∀ c ∈ rest.head?, isSpace c = true) :
    p.parseRequestLine (method ++ ' ' :: (url ++ ' ' :: (version ++ rest))) =
      (true, { p with method := method, url := url, httpVersion := version }) := by
  have hblank : ∀ c ∈ [' '], isSpace c = true := by simp [isSpace]
  have hnone : ∀ c ∈ ([] : Str), isSpace c = true := by simp
  have hnext (s : Str) : ∀ c ∈ (' ' :: s).head?, isSpace c = true := by simp [isSpace]
  have hfirst := readWord_append hnone hmethod (hnext (url ++ ' ' :: (version ++ rest)))
  have hsecond := readWord_append hblank hurl (hnext (version ++ rest))
  have hthird := readWord_append hblank hversion hrest
  simp only [List.nil_append] at hfirst
  simp only [List.cons_append, List.nil_append] at hsecond hthird
  simp only [parseRequestLine, hfirst, hsecond, hthird]

lemma parseHeaderLine_append {name : Str} (hname : ':' ∉ name) (value : Str) :
    p.parseHeaderLine (name ++ ':' :: value) =
      (true, { p with headers := p.headers.insert name value }) := by
  simp only [parseHeaderLine, findStr_singleton_append value hname, List.take_left, Prod.mk.injEq,
    true_and]
  rw [List.append_cons, List.drop_left' (by simp)]

/-- A header line without a colon is refused. -/
lemma parseHeaderLine_eq_false_iff (line : Str) :
    (p.parseHeaderLine line).1 = false ↔ ':' ∉ line := by
  unfold parseHeaderLine
  cases h : findStr [':'] line with
  | none =>
    have hnone := (findStr_eq_none_iff (List.cons_ne_nil ':' []) line).mp h
    refine iff_of_true rfl fun hmem => hnone ?_
    obtain ⟨a, b, rfl⟩ := List.append_of_mem hmem
    exact ⟨a, b, by simp⟩
  | some i =>
    obtain ⟨a, b, rfl, -⟩ := exists_split_of_findStr h
    exact iff_of_false (by simp) (by simp)

/-! ### Header blocks -/

/-- A request line. -/
def requestLine (method url version : Str) : Str := method ++ ' ' :: (url ++ ' ' :: version)

/-- A name and what is written behind the colon. -/
def headerLine (header : Str × Str) : Str := header.1 ++ ':' :: header.2

/-- Lines with what ends them. -/
def crlfLines (ls : List Str) : Str := ls.flatMap fun line => line ++ ['\r', '\n']

/-- The block of a request line and headers. -/
def headerBlock (method url version : Str) (headers : List (Str × Str)) : Str :=
  crlfLines (requestLine method url version :: headers.map headerLine) ++ ['\r', '\n']

/-- The table of the headers of a block: a carriage return is part of each value. -/
def tableOf (t : Table Str Str) (headers : List (Str × Str)) : Table Str Str :=
  Table.writeAll Prod.fst (fun header => some (header.2 ++ ['\r'])) t headers

/-- The name has no colon, and the header stands on one line. -/
def OneLine (header : Str × Str) : Prop :=
  ':' ∉ header.1 ∧ '\n' ∉ header.1 ∧ '\n' ∉ header.2

lemma OneLine.not_mem {header : Str × Str} (h : OneLine header) :
    '\n' ∉ headerLine header ++ ['\r'] := by
  simp [headerLine, h.2.1, h.2.2]

lemma parseHeaderLines_append {headers : List (Str × Str)} (h : ∀ header ∈ headers, OneLine header)
    (rest : List Str) :
    p.parseHeaderLines ((headers.map fun header => headerLine header ++ ['\r']) ++ rest) =
      parseHeaderLines { p with headers := tableOf p.headers headers } rest := by
  induction headers generalizing p with
  | nil => rfl
  | cons header headers ih =>
    have hline : headerLine header ++ ['\r'] = header.1 ++ ':' :: (header.2 ++ ['\r']) := by
      simp [headerLine]
    have hne : header.1 ++ ':' :: (header.2 ++ ['\r']) ≠ ['\r'] := fun heq => by
      have hmem : ':' ∈ ['\r'] := by rw [← heq]; simp
      exact absurd hmem (by decide)
    rw [List.map_cons, List.cons_append, hline, parseHeaderLines, if_neg hne,
      parseHeaderLine_append (h header List.mem_cons_self).1]
    exact ih fun header' hmem => h header' (List.mem_cons_of_mem _ hmem)

lemma isWord_not_mem {word : Str} (h : IsWord word) : '\n' ∉ word := fun hmem =>
  absurd (h.2 '\n' hmem) (by decide)

lemma requestLine_not_mem {method url version : Str} (hmethod : IsWord method) (hurl : IsWord url)
    (hversion : IsWord version) : '\n' ∉ requestLine method url version := by
  simp [requestLine, isWord_not_mem hmethod, isWord_not_mem hurl, isWord_not_mem hversion]

/-- The lines of a block, as `std::getline` reads them. -/
lemma lines_crlfLines {ls : List Str} (hls : ∀ line ∈ ls, '\n' ∉ line) :
    lines (crlfLines ls ++ ['\r', '\n']) = ls.map (fun line => line ++ ['\r']) ++ [['\r']] := by
  have hblock : crlfLines ls ++ ['\r', '\n'] =
      List.flatMap (fun line => line ++ ['\n'])
        (ls.map (fun line => line ++ ['\r']) ++ [['\r']]) := by
    simp [crlfLines, List.flatMap_map]
  rw [hblock, lines_flatMap]
  intro line hline
  rcases List.mem_append.mp hline with hline | hline
  · obtain ⟨text, htext, rfl⟩ := List.mem_map.mp hline
    simp [hls text htext]
  · rw [List.mem_singleton.mp hline]
    decide

lemma lines_headerBlock {method url version : Str} {headers : List (Str × Str)}
    (hmethod : IsWord method) (hurl : IsWord url) (hversion : IsWord version)
    (hheaders : ∀ header ∈ headers, OneLine header) :
    lines (headerBlock method url version headers) =
      (requestLine method url version ++ ['\r']) ::
        ((headers.map fun header => headerLine header ++ ['\r']) ++ [['\r']]) := by
  rw [headerBlock, lines_crlfLines, List.map_cons, List.map_map]
  · rfl
  · intro line hline
    rcases List.mem_cons.mp hline with rfl | hline
    · exact requestLine_not_mem hmethod hurl hversion
    · obtain ⟨header, hmem, rfl⟩ := List.mem_map.mp hline
      exact fun h => (hheaders header hmem).not_mem (List.mem_append_left _ h)

/-- A block is read back: the words of its first line, and the last value written under each name. -/
lemma parse_headerBlock {method url version : Str} {headers : List (Str × Str)}
    (hmethod : IsWord method) (hurl : IsWord url) (hversion : IsWord version)
    (hheaders : ∀ header ∈ headers, OneLine header) :
    p.parse (headerBlock method url version headers) =
      (true, ⟨method, url, version, tableOf p.headers headers⟩) := by
  have hline : requestLine method url version ++ ['\r'] =
      method ++ ' ' :: (url ++ ' ' :: (version ++ ['\r'])) := by
    simp [requestLine]
  have hreturn : ∀ c ∈ ['\r'].head?, isSpace c = true := by simp [isSpace]
  have hwords := parseRequestLine_words (p := p) hmethod hurl hversion hreturn
  simp only [parse, lines_headerBlock hmethod hurl hversion hheaders, hline, hwords,
    parseHeaderLines_append hheaders, parseHeaderLines, if_true]

lemma getHeader_tableOf {headers : List (Str × Str)} {name : Str} {method url version : Str} :
    getHeader ⟨method, url, version, tableOf ∅ headers⟩ name =
      ((headers.filter fun header => header.1 = name).getLast?.map
        fun header => header.2 ++ ['\r']).getD [] := by
  rw [getHeader, tableOf, Table.lookup_writeAll, AList.lookup_empty, Option.or_none]
  rw [List.filterMap_eq_map', List.getLast?_map]

/-! ### Headers with a blank behind the colon -/

/-- A header as it is written: `name: value`. -/
def spaced (header : Str × Str) : Str × Str := (header.1, ' ' :: header.2)

lemma OneLine.spaced {header : Str × Str} (h : OneLine header) :
    OneLine (HttpRequestParser.spaced header) := by
  refine ⟨h.1, h.2.1, ?_⟩
  rw [HttpRequestParser.spaced, List.mem_cons, not_or]
  exact ⟨by decide, h.2.2⟩

/-- The last header with a name is the last one of the same name before the blanks were written. -/
lemma getLast?_filter_spaced (headers : List (Str × Str)) (name : Str) :
    ((headers.map spaced).filter fun header => header.1 = name).getLast? =
      (headers.filter fun header => header.1 = name).getLast?.map spaced := by
  rw [List.filter_map, List.getLast?_map]
  rfl

/-- A line without a colon, wherever it stands behind the request line, ends the parse. -/
lemma parse_of_not_colon {method url version line : Str} {headers : List (Str × Str)}
    {rest : List Str} (hmethod : IsWord method) (hurl : IsWord url) (hversion : IsWord version)
    (hheaders : ∀ header ∈ headers, OneLine header) (hrest : ∀ line ∈ rest, '\n' ∉ line)
    (hne : line ≠ []) (hline : ∀ c ∈ line, c ≠ ':' ∧ c ≠ '\r' ∧ c ≠ '\n') :
    (p.parse (crlfLines (requestLine method url version :: (headers.map headerLine ++
      line :: rest)) ++ ['\r', '\n'])).1 = false := by
  have hlines : ∀ l ∈ requestLine method url version :: (headers.map headerLine ++ line :: rest),
      '\n' ∉ l := by
    intro l hl
    simp only [List.mem_append, List.mem_cons, List.mem_map] at hl
    rcases hl with rfl | ⟨header, hmem, rfl⟩ | rfl | hl
    · exact requestLine_not_mem hmethod hurl hversion
    · exact fun h => (hheaders header hmem).not_mem (List.mem_append_left _ h)
    · exact fun h => (hline _ h).2.2 rfl
    · exact hrest l hl
  have hrequest : requestLine method url version ++ ['\r'] =
      method ++ ' ' :: (url ++ ' ' :: (version ++ ['\r'])) := by
    simp [requestLine]
  have hreturn : ∀ c ∈ ['\r'].head?, isSpace c = true := by simp [isSpace]
  have hwords := parseRequestLine_words (p := p) hmethod hurl hversion hreturn
  have hread : ((headers.map headerLine).map fun line => line ++ ['\r']) =
      headers.map fun header => headerLine header ++ ['\r'] := by
    rw [List.map_map]
    rfl
  have hblank : line ++ ['\r'] ≠ ['\r'] := by
    intro h
    exact hne (List.append_left_eq_self.mp h)
  have hcolon : ':' ∉ line ++ ['\r'] := by
    rw [List.mem_append, not_or]
    exact ⟨fun h => (hline _ h).1 rfl, by decide⟩
  rw [parse, lines_crlfLines hlines, List.map_cons, List.map_append, hread, hrequest]
  simp only [hwords, List.map_cons, List.cons_append, List.append_assoc,
    parseHeaderLines_append hheaders, parseHeaderLines, if_neg hblank]
  have hrefused := (parseHeaderLine_eq_false_iff (p := { p with
    method := method, url := url, httpVersion := version
    headers := tableOf p.headers headers }) (line ++ ['\r'])).mpr hcolon
  split
  · rfl
  · rename_i heq
    rw [heq] at hrefused
    cases hrefused

/-- A fresh parser reads back what is written in a header block, and refuses the block once a line
without a colon is put between its lines. -/
theorem parse_decodes {method url version : Str} {headers : List (Str × Str)}
    (hmethod : IsWord method) (hurl : IsWord url) (hversion : IsWord version)
    (hheaders : ∀ header ∈ headers, OneLine header) :
    (∃ p, parse {} (headerBlock method url version (headers.map spaced)) = (true, p) ∧
      p.method = method ∧ p.url = url ∧ p.httpVersion = version ∧
      ∀ name, p.getHeader name =
        ((headers.filter fun header => header.1 = name).getLast?.map
          fun header => ' ' :: header.2 ++ ['\r']).getD []) ∧
    ∀ before after line, headers = before ++ after → line ≠ [] →
      (∀ c ∈ line, c ≠ ':' ∧ c ≠ '\r' ∧ c ≠ '\n') →
        (parse {} (crlfLines (requestLine method url version ::
          ((before.map spaced).map headerLine ++ line :: (after.map spaced).map headerLine)) ++
            ['\r', '\n'])).1 = false := by
  have hspaced : ∀ l : List (Str × Str), (∀ header ∈ l, header ∈ headers) →
      ∀ header ∈ l.map spaced, OneLine header := by
    intro l hl header hheader
    obtain ⟨header', hmem, rfl⟩ := List.mem_map.mp hheader
    exact (hheaders header' (hl header' hmem)).spaced
  constructor
  · refine ⟨_, parse_headerBlock hmethod hurl hversion (hspaced headers fun _ h => h), rfl, rfl, rfl,
      fun name => ?_⟩
    rw [getHeader_tableOf, getLast?_filter_spaced, Option.map_map]
    rfl
  · rintro before after line rfl hne hline
    have hbefore := hspaced before fun _ h => List.mem_append_left _ h
    have hafter := hspaced after fun _ h => List.mem_append_right _ h
    have hrest : ∀ l ∈ (after.map spaced).map headerLine, '\n' ∉ l := by
      intro l hl
      obtain ⟨header, hmem, rfl⟩ := List.mem_map.mp hl
      exact fun h => (hafter header hmem).not_mem (List.mem_append_left _ h)
    exact parse_of_not_colon hmethod hurl hversion hbefore hrest hne hline

/-- A name that is there twice, and a value that looks like a header itself. -/
theorem parse_decodes_host :
    (∃ p, parse {} "GET / HTTP/1.1\r\nHost: a\r\nX: Host: b\r\nHost: c:1\r\n\r\n".toList =
        (true, p) ∧
      p.getHeader "Host".toList = " c:1\r".toList ∧ p.getHeader ['X'] = " Host: b\r".toList ∧
      p.getHeader ['Y'] = []) ∧
    (parse {} "GET / HTTP/1.1\r\nHost: a\r\nx\r\nX: Host: b\r\nHost: c:1\r\n\r\n".toList).1 =
      false := by
  have hget : IsWord "GET".toList := ⟨by decide, List.forall_iff_forall_mem.mp (by decide)⟩
  have hslash : IsWord ['/'] := ⟨by decide, List.forall_iff_forall_mem.mp (by decide)⟩
  have hversion : IsWord "HTTP/1.1".toList :=
    ⟨by decide, List.forall_iff_forall_mem.mp (by decide)⟩
  have hheaders : ∀ header ∈ [("Host".toList, ['a']), (['X'], "Host: b".toList),
      ("Host".toList, "c:1".toList)], OneLine header := by
    simp only [List.forall_mem_cons]
    exact ⟨⟨by decide, by decide, by decide⟩, ⟨by decide, by decide, by decide⟩,
      ⟨by decide, by decide, by decide⟩, by simp⟩
  obtain ⟨⟨p, hparse, -, -, -, hheader⟩, hrefused⟩ := parse_decodes hget hslash hversion hheaders
  refine ⟨⟨p, hparse, hheader _, hheader _, hheader _⟩, ?_⟩
  exact hrefused [("Host".toList, ['a'])] _ ['x'] rfl (by decide)
    (List.forall_iff_forall_mem.mp (by decide))

end HttpRequestParser

end SocialNetworkApp
