import SocialNetworkApp.Session.Reading

/-!
# Requests cut into reads

Two parsers decide about a request: the session's own, how much of the body is read, and the one of
the library, what is taken from the text that was read. Only where they agree on the length of the
body does the request that is dispatched not depend on the reads.
-/

namespace SocialNetworkApp

open SocialNetworkApp.Core

namespace WireRequest

variable {W : Type} {env : Environment W} {w : W} {r : WireRequest} {ip : Str}

/-- The library reads the head, whatever the spelling of its names, and takes the body from what
follows, up to the length that is announced. -/
def ParsedBy (r : WireRequest) (env : Environment W) : Prop :=
  ∀ b, ∃ fields, env.parseRequest (r.head ++ b) =
    some ⟨.ofStr r.method, r.target, b.take r.body.length, fields⟩

/-- Reads that are not empty and add up to the text. -/
structure IsCut (chunks : List Chunk) (text : Str) : Prop where
  ne : ∀ chunk ∈ chunks, chunk.bytes ≠ []
  bytes : chunks.flatMap Chunk.bytes = text

/-- The request has the method, the target and the complete body of `r`, as the session passes it
on. -/
structure Carries (request : Request) (r : WireRequest) : Prop where
  method : request.method = .ofStr r.method
  target : request.target = r.target
  body : request.body = Session.terminated r.body

/-- However the text is cut into reads, one request is dispatched, and it is the same. -/
def DispatchedAlike (env : Environment W) (w : W) (r : WireRequest) : Prop :=
  ∀ ip chunks chunks', IsCut chunks r.text → IsCut chunks' r.text →
    ∃ request request', (Session.run env w (chunks.map (deliver ip))).dispatched = [request] ∧
      (Session.run env w (chunks'.map (deliver ip))).dispatched = [request'] ∧
      request.method = request'.method ∧ request.target = request'.target ∧
      request.body = request'.body ∧ Carries request r

/-- The two parsers agree on the body: there is none, or the session waits for it. -/
def Agreed (r : WireRequest) : Prop :=
  r.body = [] ∨ Session.hasBody r.method ∧ r.Spelled ∧ r.body.length ≤ 2147483647

/-! ### The header -/

/-- The session that has parsed the head, with the length it has found. -/
def parsed (r : WireRequest) (w : W) (n : CInt) (body : Str) : Session W :=
  { Session.complete w r.head body with requestParser := r.parser, contentLength := n }

/-- The length is looked up for a `POST` or `PUT` with the name as it is spelled in the session. -/
lemma processHeader_spelled (hbody : Session.hasBody r.method) (hspelled : r.Spelled)
    (body : Str) :
    Session.processHeader env (some ip) (Session.complete w r.head body) =
      match CInt.ofInt? r.body.length with
      | some n => Session.finishBody env (r.parsed w n body)
      | none => (r.parsed w 0 body).throw (.exception (.number .outOfRange)) := by
  have hparse : HttpRequestParser.parse (Session.complete w r.head body).requestParser
      (Session.complete w r.head body).requestHeader = (true, r.parser) := r.parse_head
  rcases r.getHeader_contentLength with ⟨-, value, hvalue, hget⟩ | ⟨hnot, -⟩
  · have hne : value ++ ['\r'] ≠ [] := by simp
    have hmethod : Session.hasBody r.parser.method := hbody
    simp only [Session.processHeader, hparse, Session.processRequest, if_pos hmethod, hget,
      if_neg hne, stoi_announced hvalue]
    cases CInt.ofInt? (r.body.length : Int) <;> rfl
  · exact absurd hspelled hnot

/-- With another method or another spelling, the session responds at once. -/
lemma processHeader_unspelled (h : ¬ (Session.hasBody r.method ∧ r.Spelled)) (body : Str) :
    Session.processHeader env (some ip) (Session.complete w r.head body) =
      Session.respondToRequest env (r.parsed w 0 body) := by
  have hparse : HttpRequestParser.parse (Session.complete w r.head body).requestParser
      (Session.complete w r.head body).requestHeader = (true, r.parser) := r.parse_head
  have hzero : Session.finishBody env (r.parsed w 0 body) =
      Session.respondToRequest env (r.parsed w 0 body) :=
    if_pos (Nat.zero_le _)
  simp only [Session.processHeader, hparse, Session.processRequest]
  split_ifs with hmethod hempty
  · exact hzero
  · rcases r.getHeader_contentLength with ⟨hspelled, -⟩ | ⟨-, hget⟩
    · exact absurd ⟨hmethod, hspelled⟩ h
    · exact absurd hget hempty
  · rfl

/-! ### The dispatched request -/

/-- A session that responds dispatches what it has of the request. -/
lemma dispatched_respond {s : Session W} (hparse : r.ParsedBy env)
    (hheader : s.requestHeader = r.head) (hdispatched : s.dispatched = []) :
    ∃ fields, (Session.respondToRequest env s).dispatched =
      [⟨.ofStr r.method, r.target, Session.terminated (s.requestBody.take r.body.length), fields⟩] := by
  obtain ⟨fields, hrequest⟩ := hparse s.requestBody
  rw [← hheader] at hrequest
  refine ⟨fields, ?_⟩
  rw [Session.dispatched_respondToRequest hrequest, hdispatched]
  rfl

/-- With another method or another spelling, what comes with the head is dispatched. -/
lemma dispatched_unspelled (hparse : r.ParsedBy env) (h : ¬ (Session.hasBody r.method ∧ r.Spelled))
    (body : Str) (cs : List Completion) :
    ∃ fields, (cs.foldl (Session.handle env)
        (Session.processHeader env (some ip) (Session.complete w r.head body))).dispatched =
      [⟨.ofStr r.method, r.target, Session.terminated (body.take r.body.length), fields⟩] := by
  rw [processHeader_unspelled h, Session.foldl_handle_of_stopped (Session.stopped_respondToRequest rfl)]
  exact @dispatched_respond W env r (r.parsed w 0 body) hparse rfl rfl

lemma bodyHead (hbody : Session.hasBody r.method) (hspelled : r.Spelled) {n : CInt}
    (hn : CInt.ofInt? r.body.length = some n) : Session.BodyHead r.head n := by
  refine ⟨r.endsHeader_head, r.parser, r.parse_head, hbody, ?_⟩
  rcases r.getHeader_contentLength with ⟨-, value, hvalue, hget⟩ | ⟨hnot, -⟩
  · rw [hget, stoi_announced hvalue, hn]
  · exact absurd hspelled hnot

/-- The length of a body that is not too long, converted. -/
lemma exists_size (hlen : r.body.length ≤ 2147483647) :
    ∃ n, CInt.ofInt? r.body.length = some n ∧ n.toSize = r.body.length := by
  refine ⟨⟨r.body.length, by omega, by omega⟩,
    CInt.ofInt?_val ⟨r.body.length, by omega, by omega⟩, ?_⟩
  rw [CInt.toSize_of_nonneg (Int.natCast_nonneg _)]
  exact Int.toNat_natCast _

/-- If the session waits for the body, it responds to a request with the complete body, whatever
comes behind it. -/
lemma run_spelled (hbody : Session.hasBody r.method) (hspelled : r.Spelled)
    (hlen : r.body.length ≤ 2147483647) {chunks : List Chunk} {rest : Str}
    (hbytes : chunks.flatMap Chunk.bytes = r.text ++ rest) :
    ∃ s : Session W, s.Ready w r.head ∧ s.requestBody.take r.body.length = r.body ∧
      Session.run env w (chunks.map (deliver ip)) = Session.respondToRequest env s := by
  obtain ⟨n, hn, hsize⟩ := r.exists_size hlen
  rw [text, List.append_assoc] at hbytes
  obtain ⟨s, hready, hle, ⟨rest', hpre⟩, hrun⟩ := @Session.run_bodyHead W env w ip _ _ n
    (r.bodyHead hbody hspelled hn) chunks hbytes (by rw [hsize, List.length_append]; omega)
  refine ⟨s, hready, ?_, hrun⟩
  rw [hsize] at hle
  have htake : (s.requestBody ++ rest').take r.body.length = s.requestBody.take r.body.length :=
    List.take_append_of_le_length hle
  rw [← htake, hpre, List.take_left]

/-- A length that is no `int` is thrown over, and nothing is dispatched. -/
lemma dispatched_of_long (hbody : Session.hasBody r.method) (hspelled : r.Spelled)
    (hlong : ¬ r.body.length ≤ 2147483647) {chunks : List Chunk} {rest : Str}
    (hbytes : chunks.flatMap Chunk.bytes = r.text ++ rest) :
    (Session.run env w (chunks.map (deliver ip))).dispatched = [] := by
  have hn : CInt.ofInt? r.body.length = none := by
    rw [CInt.ofInt?, dif_neg]
    rintro ⟨-, hle⟩
    omega
  rw [text, List.append_assoc] at hbytes
  obtain ⟨chunks₁, chunk, chunks₂, body₁, rfl, -, -, -, hrun⟩ :=
    @Session.run_completing W env w ip chunks r.head _ r.endsHeader_head hbytes
  rw [hrun, processHeader_spelled hbody hspelled, hn]
  simp only
  rw [Session.foldl_handle_of_stopped (Session.stopped_of_eq_nil rfl)]
  rfl

/-- If the parsers agree, the session responds when it has read the head and the whole body. -/
lemma run_agreed (h : r.Agreed) {chunks : List Chunk} (hcut : IsCut chunks r.text) :
    ∃ s : Session W, s.requestHeader = r.head ∧ s.requestBody = r.body ∧ s.dispatched = [] ∧
      Session.run env w (chunks.map (deliver ip)) = Session.respondToRequest env s := by
  by_cases hspelled : Session.hasBody r.method ∧ r.Spelled
  · have hlen : r.body.length ≤ 2147483647 := by
      rcases h with hempty | ⟨-, -, hle⟩
      · rw [hempty]
        exact Nat.zero_le _
      · exact hle
    obtain ⟨n, hn, hsize⟩ := r.exists_size hlen
    obtain ⟨s, hready, hle, hpre, hrun⟩ := @Session.run_bodyHead W env w ip _ _ n
      (r.bodyHead hspelled.1 hspelled.2 hn) chunks hcut.bytes hsize.le
    exact ⟨s, hready.requestHeader, hpre.eq_of_length_le (hsize ▸ hle), hready.dispatched, hrun⟩
  · have hempty : r.body = [] := by
      rcases h with hempty | ⟨hbody, hname, -⟩
      · exact hempty
      · exact absurd ⟨hbody, hname⟩ hspelled
    obtain ⟨chunks₁, chunk, chunks₂, body₁, rfl, -, -, hbody, hrun⟩ :=
      @Session.run_completing W env w ip chunks r.head r.body r.endsHeader_head hcut.bytes
    obtain rfl : body₁ = [] := (List.append_eq_nil_iff.mp (hbody.trans hempty)).1
    refine ⟨r.parsed w 0 [], rfl, hempty.symm, rfl, ?_⟩
    rw [hrun, processHeader_unspelled hspelled,
      Session.foldl_handle_of_stopped (Session.stopped_respondToRequest rfl)]

/-- If the parsers agree, every cut has what the library makes of the whole text dispatched, with
new lines behind a body. -/
lemma dispatched_of_agreed (h : r.Agreed) {chunks : List Chunk} (hcut : IsCut chunks r.text)
    {request : Request} (hrequest : env.parseRequest r.text = some request) :
    (Session.run env w (chunks.map (deliver ip))).dispatched =
      [{ request with body := Session.terminated request.body }] := by
  obtain ⟨s, hheader, hbody, hdispatched, hrun⟩ := @run_agreed W env w r ip h chunks hcut
  have hparse : env.parseRequest (s.requestHeader ++ s.requestBody) = some request := by
    rw [hheader, hbody]
    exact hrequest
  rw [hrun, Session.dispatched_respondToRequest hparse, hdispatched]
  rfl

/-- If the parsers agree, every cut carries the request. -/
lemma carries_of_agreed (hparse : r.ParsedBy env) (h : r.Agreed) {chunks : List Chunk}
    (hcut : IsCut chunks r.text) :
    ∃ request, (Session.run env w (chunks.map (deliver ip))).dispatched = [request] ∧
      Carries request r := by
  obtain ⟨fields, hrequest⟩ := hparse r.body
  refine ⟨_, dispatched_of_agreed h hcut hrequest, rfl, rfl, ?_⟩
  rw [List.take_length]

/-! ### One byte a read -/

/-- One byte a read. -/
def bytewise (text : Str) : List Chunk := text.map fun c => ⟨[c], by simp [maxLength]⟩

lemma isCut_bytewise (text : Str) : IsCut (bytewise text) text := by
  constructor
  · intro chunk hchunk
    obtain ⟨c, -, rfl⟩ := List.mem_map.mp hchunk
    exact List.cons_ne_nil c []
  · rw [bytewise, List.flatMap_map]
    exact List.flatMap_singleton' text

/-- If the parsers do not agree, the body is lost when every read has one byte. -/
lemma not_carries_of_not_agreed (hparse : r.ParsedBy env) (h : ¬ r.Agreed) {request : Request}
    (hdispatched : (Session.run env w ((bytewise r.text).map (deliver ip))).dispatched = [request]) :
    ¬ Carries request r := by
  intro hcarries
  rw [Agreed, not_or] at h
  obtain ⟨hbody, hnot⟩ := h
  by_cases hspelled : Session.hasBody r.method ∧ r.Spelled
  · have hlong : ¬ r.body.length ≤ 2147483647 := fun hle => hnot ⟨hspelled.1, hspelled.2, hle⟩
    have hbytes : (bytewise r.text).flatMap Chunk.bytes = r.text ++ [] := by
      rw [(isCut_bytewise r.text).bytes, List.append_nil]
    rw [dispatched_of_long hspelled.1 hspelled.2 hlong hbytes] at hdispatched
    cases hdispatched
  · obtain ⟨chunks₁, chunk, chunks₂, body₁, hchunks, hlen, hchunk, -, hrun⟩ :=
      @Session.run_completing W env w ip _ r.head r.body r.endsHeader_head
        (isCut_bytewise r.text).bytes
    have hone : chunk.bytes.length = 1 := by
      have hmem : chunk ∈ bytewise r.text := by
        rw [hchunks]
        exact List.mem_append_right _ List.mem_cons_self
      obtain ⟨c, -, rfl⟩ := List.mem_map.mp hmem
      rfl
    have hbody₁ : body₁ = [] := by
      have hsum := congrArg List.length hchunk
      simp only [List.length_append] at hsum
      exact List.length_eq_zero_iff.mp (by omega)
    subst hbody₁
    obtain ⟨fields, hlost⟩ := @dispatched_unspelled W env w r ip hparse hspelled []
      (chunks₂.map (deliver ip))
    rw [hrun, hlost] at hdispatched
    obtain rfl := List.singleton_inj.mp hdispatched
    have hkept : Session.terminated (([] : Str).take r.body.length) = Session.terminated r.body :=
      hcarries.body
    rw [List.take_nil, Session.terminated, Session.terminated, if_pos rfl, if_neg hbody] at hkept
    exact hbody (List.append_eq_nil_iff.mp hkept.symm).1

/-- What is dispatched does not depend on the reads exactly if the two parsers agree on the body. -/
theorem dispatchedAlike_iff (hparse : r.ParsedBy env) : DispatchedAlike env w r ↔ r.Agreed := by
  constructor
  · intro halike
    by_contra hnot
    obtain ⟨request, -, hrequest, -, -, -, -, hcarries⟩ :=
      halike [] _ _ (isCut_bytewise r.text) (isCut_bytewise r.text)
    exact not_carries_of_not_agreed hparse hnot hrequest hcarries
  · intro hagreed ip chunks chunks' hcut hcut'
    obtain ⟨request, hrequest, hcarries⟩ := carries_of_agreed hparse hagreed hcut
    obtain ⟨request', hrequest', hcarries'⟩ := carries_of_agreed hparse hagreed hcut'
    refine ⟨request, request', hrequest, hrequest', ?_, ?_, ?_, hcarries⟩
    · rw [hcarries.method, hcarries'.method]
    · rw [hcarries.target, hcarries'.target]
    · rw [hcarries.body, hcarries'.body]

/-- The value of a header without the blanks around it. -/
def fieldValue (value : Str) : Str :=
  let isBlank := fun c => c == ' ' || c == '\t'
  ((value.dropWhile isBlank).reverse.dropWhile isBlank).reverse

/-- The headers as the library gives them. -/
def fields (r : WireRequest) : List (Str × Str) :=
  r.headers.map fun header => (header.1, fieldValue header.2)

/-- A library that reads the head of one request. -/
def reader (r : WireRequest) : Environment Unit where
  parseRequest text :=
    if r.head <+: text then
      some ⟨.ofStr r.method, r.target, (text.drop r.head.length).take r.body.length, r.fields⟩
    else none
  dispatch _ response world := .ok (response, world)
  serialize := Response.body

lemma parsedBy_reader (r : WireRequest) : r.ParsedBy (reader r) := by
  intro b
  refine ⟨r.fields, ?_⟩
  simp only [reader, if_pos (List.prefix_append r.head b), List.drop_left]

/-- A `POST` of one byte, with a length under the name `name`. -/
def postByte (name : Str) (h : WellFormedHeader (name, " 1".toList))
    (hname : isContentLength (name, " 1".toList) = true) : WireRequest where
  method := "POST".toList
  target := "/a".toList
  headers := [(name, " 1".toList)]
  body := ['x']
  method_word := ⟨by decide, List.forall_iff_forall_mem.mp (by decide)⟩
  target_word := ⟨by decide, List.forall_iff_forall_mem.mp (by decide)⟩
  headers_wf header hheader := by
    obtain rfl := List.mem_singleton.mp hheader
    exact h
  length := ⟨_, List.filter_cons_of_pos hname, [' '], ['1'], [], rfl,
    List.forall_iff_forall_mem.mp (by decide), by decide,
    List.forall_iff_forall_mem.mp (by decide), by decide⟩

/-- The name as the session looks it up. -/
def spelledByte : WireRequest :=
  postByte "Content-Length".toList ⟨by decide,
    List.forall_iff_forall_mem.mp (by decide), List.forall_iff_forall_mem.mp (by decide)⟩ (by decide)

theorem dispatchedAlike_iff_spelledByte :
    DispatchedAlike (reader spelledByte) () spelledByte ↔ spelledByte.Agreed :=
  dispatchedAlike_iff (parsedBy_reader spelledByte)

/-- The same request with a name in lower case. -/
def lowerByte : WireRequest :=
  postByte "content-length".toList ⟨by decide,
    List.forall_iff_forall_mem.mp (by decide), List.forall_iff_forall_mem.mp (by decide)⟩ (by decide)

/-- Read at once, the body is dispatched; with the head read first, it is not. -/
theorem lowerByte_not_dispatchedAlike :
    lowerByte.ParsedBy (reader lowerByte) ∧ ¬ DispatchedAlike (reader lowerByte) () lowerByte := by
  refine ⟨parsedBy_reader lowerByte, fun halike => ?_⟩
  obtain ⟨request, request', hrequest, hrequest', -, -, hbody, -⟩ := halike []
    [⟨lowerByte.text, by decide⟩] [⟨lowerByte.head, by decide⟩, ⟨['x'], by decide⟩]
    ⟨by simp [text, head, lowerByte, postByte], by simp⟩
    ⟨by simp [head, HttpRequestParser.headerBlock], by simp [text, lowerByte, postByte]⟩
  cases hrequest
  cases hrequest'
  cases hbody

end WireRequest

end SocialNetworkApp
