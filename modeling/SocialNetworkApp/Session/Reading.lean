import SocialNetworkApp.Session.WireRequest

/-!
# Reading in pieces

What a session holds after a number of reads depends on the bytes that were read alone, until the
header block is complete, and from then on until the body is.
-/

namespace SocialNetworkApp

open SocialNetworkApp.Core

/-- A read that completes without an error, from a client whose address can be read. -/
def deliver (ip : Str) (chunk : Chunk) : Completion := ⟨some chunk, some ip⟩

namespace Session

variable {W : Type} {env : Environment W} {w : W} {ip : Str} {s : Session W}

/-! ### The header block -/

/-- The session that waits for the rest of its header block. -/
def waiting (w : W) (text : Str) : Session W := { start w with requestString := text }

/-- The session whose header block is complete, while its handler runs. -/
def complete (w : W) (head body : Str) : Session W :=
  { world := w, requestString := head ++ body, requestHeader := head, requestBody := body }

lemma handle_waiting {text : Str} {chunk : Chunk} (h : ¬ headerEnd <:+: text ++ chunk.bytes) :
    handle env (waiting w text) (deliver ip chunk) = waiting w (text ++ chunk.bytes) := by
  show handleReadHeader env (deliver ip chunk) _ = _
  have hnone := (findStr_eq_none_iff headerEnd_ne_nil (text ++ chunk.bytes)).mpr h
  simp only [handleReadHeader, deliver, waiting, hnone]
  rfl

/-- While the header block is not complete, the session waits. -/
lemma foldl_waiting {text : Str} {chunks : List Chunk}
    (h : ¬ headerEnd <:+: text ++ chunks.flatMap Chunk.bytes) :
    (chunks.map (deliver ip)).foldl (handle env) (waiting w text) =
      waiting w (text ++ chunks.flatMap Chunk.bytes) := by
  induction chunks generalizing text with
  | nil => simp
  | cons chunk chunks ih =>
    rw [List.flatMap_cons, ← List.append_assoc] at h ⊢
    have hfirst : ¬ headerEnd <:+: text ++ chunk.bytes := fun hin =>
      h (hin.trans (List.prefix_append _ _).isInfix)
    rw [List.map_cons, List.foldl_cons, handle_waiting hfirst]
    exact ih h

/-- The read that completes the header block has all there is of the body. -/
lemma handle_completing {text head body : Str} {chunk : Chunk} (hend : EndsHeader head)
    (htext : text.length < head.length) (h : text ++ chunk.bytes = head ++ body) :
    handle env (waiting w text) (deliver ip chunk) =
      processHeader env (some ip) (complete w head body) := by
  show handleReadHeader env (deliver ip chunk) _ = _
  have hfind := findStr_of_suffix headerEnd_ne_nil body hend.suffix hend.first
  have hlen : head.length - headerEnd.length + 4 = head.length := by
    have hle : headerEnd.length ≤ head.length := hend.suffix.length_le
    have hfour : headerEnd.length = 4 := rfl
    omega
  have hbody : body.length ≤ chunk.bytes.length := by
    have hsum := congrArg List.length h
    simp only [List.length_append] at hsum
    omega
  simp only [handleReadHeader, deliver, waiting, h, hfind, hlen, List.take_left]
  rw [substr, List.drop_left, List.take_of_length_le hbody]
  rfl

/-- Reads that contain a header block come to the read that completes it. -/
lemma run_completing {chunks : List Chunk} {head body : Str} (hend : EndsHeader head)
    (h : chunks.flatMap Chunk.bytes = head ++ body) :
    ∃ chunks₁ chunk chunks₂ body₁, chunks = chunks₁ ++ chunk :: chunks₂ ∧
      (chunks₁.flatMap Chunk.bytes).length < head.length ∧
      chunks₁.flatMap Chunk.bytes ++ chunk.bytes = head ++ body₁ ∧
      body₁ ++ chunks₂.flatMap Chunk.bytes = body ∧
      run env w (chunks.map (deliver ip)) =
        (chunks₂.map (deliver ip)).foldl (handle env)
          (processHeader env (some ip) (complete w head body₁)) := by
  have hne : head ≠ [] := by
    rintro rfl
    exact headerEnd_ne_nil (List.suffix_nil.mp hend.suffix)
  obtain ⟨chunks₁, chunk, chunks₂, body₁, rfl, hlen, hchunk, hrest⟩ := exists_completing h hne
  refine ⟨chunks₁, chunk, chunks₂, body₁, rfl, hlen, hchunk, hrest, ?_⟩
  have hpre : chunks₁.flatMap Chunk.bytes <+: head.dropLast := by
    have htext : chunks₁.flatMap Chunk.bytes <+: head ++ body₁ := by
      rw [← hchunk]
      exact List.prefix_append _ _
    apply List.prefix_of_prefix_length_le htext
    · exact (List.dropLast_prefix head).trans (List.prefix_append _ _)
    · rw [List.length_dropLast]
      omega
  have hfirst : ¬ headerEnd <:+: [] ++ chunks₁.flatMap Chunk.bytes := fun hin =>
    hend.first (hin.trans hpre.isInfix)
  have hwaiting := @foldl_waiting W env w ip [] chunks₁ hfirst
  rw [List.nil_append] at hwaiting
  rw [run, List.map_append, List.foldl_append, show start w = waiting w [] from rfl, hwaiting,
    List.map_cons, List.foldl_cons, handle_completing hend hlen hchunk]

/-! ### The response -/

/-- No read is outstanding. -/
def Stopped (s : Session W) : Prop := ∀ reading rest, s.outstanding ≠ .read reading :: rest

lemma stopped_of_eq_nil (h : s.outstanding = []) : s.Stopped := by
  intro reading rest hread
  rw [h] at hread
  cases hread

variable {request : Request}

/-- A request that is parsed is dispatched, with new lines at the end of its body. -/
lemma dispatched_respondToRequest
    (h : env.parseRequest (s.requestHeader ++ s.requestBody) = some request) :
    (respondToRequest env s).dispatched =
      s.dispatched ++ [{ request with body := terminated request.body }] := by
  simp only [respondToRequest, h]
  cases env.dispatch { request with body := terminated request.body } s.response s.world <;> rfl

lemma stopped_respondToRequest (houtstanding : s.outstanding = []) :
    (respondToRequest env s).Stopped := by
  intro reading rest
  unfold respondToRequest
  split
  · simp [respondError, writeResponse, asyncWriting, houtstanding]
  · simp only
    split
    · simp [throw, houtstanding]
    · simp [writeResponse, asyncWriting, houtstanding]

/-! ### The body -/

/-- Without a read, nothing completes. -/
lemma foldl_handle_of_stopped (h : s.Stopped) (cs : List Completion) : cs.foldl (handle env) s = s := by
  induction cs with
  | nil => rfl
  | cons c cs ih =>
    have hhandle : handle env s c = s := by
      unfold handle
      split
      · exact absurd ‹_› (h .header _)
      · exact absurd ‹_› (h .body _)
      · rfl
    rw [List.foldl_cons, hhandle, ih]

lemma handle_asyncReadSome_body (houtstanding : s.outstanding = []) (chunk : Chunk) :
    handle env (s.asyncReadSome .body) (deliver ip chunk) =
      finishBody env { s with requestBody := s.requestBody ++ chunk.bytes } := by
  simp only [handle, asyncReadSome, houtstanding, List.nil_append, handleReadBody, deliver]

/-- The body is read until it has the announced length, and then the session responds. -/
lemma foldl_finishBody {chunks : List Chunk} (houtstanding : s.outstanding = [])
    (hlen : s.contentLength.toSize ≤ (s.requestBody ++ chunks.flatMap Chunk.bytes).length) :
    ∃ body, s.contentLength.toSize ≤ body.length ∧
      body <+: s.requestBody ++ chunks.flatMap Chunk.bytes ∧
      (chunks.map (deliver ip)).foldl (handle env) (finishBody env s) =
        respondToRequest env { s with requestBody := body } := by
  by_cases hdone : s.contentLength.toSize ≤ s.requestBody.length
  · refine ⟨s.requestBody, hdone, List.prefix_append _ _, ?_⟩
    rw [finishBody, if_pos hdone,
      foldl_handle_of_stopped (stopped_respondToRequest houtstanding)]
  · induction chunks generalizing s with
    | nil =>
      rw [List.flatMap_nil, List.append_nil] at hlen
      exact absurd hlen hdone
    | cons chunk chunks ih =>
      rw [List.flatMap_cons, ← List.append_assoc] at hlen ⊢
      rw [finishBody, if_neg hdone, List.map_cons, List.foldl_cons,
        handle_asyncReadSome_body houtstanding]
      by_cases hnext : s.contentLength.toSize ≤ (s.requestBody ++ chunk.bytes).length
      · refine ⟨s.requestBody ++ chunk.bytes, hnext, List.prefix_append _ _, ?_⟩
        have hstop : finishBody env { s with requestBody := s.requestBody ++ chunk.bytes } =
            respondToRequest env { s with requestBody := s.requestBody ++ chunk.bytes } :=
          if_pos hnext
        rw [hstop]
        refine foldl_handle_of_stopped (stopped_respondToRequest ?_) _
        exact houtstanding
      · exact @ih { s with requestBody := s.requestBody ++ chunk.bytes } houtstanding hlen hnext

/-- Until then it reads on. -/
lemma foldl_finishBody_of_lt {chunks : List Chunk} (houtstanding : s.outstanding = [])
    (hlen : (s.requestBody ++ chunks.flatMap Chunk.bytes).length < s.contentLength.toSize) :
    ((chunks.map (deliver ip)).foldl (handle env) (finishBody env s)).outstanding =
      [.read .body] := by
  have hshort : ¬ s.contentLength.toSize ≤ s.requestBody.length := by
    rw [List.length_append] at hlen
    omega
  induction chunks generalizing s with
  | nil =>
    rw [List.map_nil, List.foldl_nil, finishBody, if_neg hshort, asyncReadSome, houtstanding]
    rfl
  | cons chunk chunks ih =>
    rw [List.flatMap_cons, ← List.append_assoc] at hlen
    rw [finishBody, if_neg hshort, List.map_cons, List.foldl_cons,
      handle_asyncReadSome_body houtstanding]
    refine @ih { s with requestBody := s.requestBody ++ chunk.bytes } houtstanding hlen ?_
    rw [List.length_append] at hlen
    exact not_le.mpr (Nat.lt_of_le_of_lt (Nat.le_add_right _ _) hlen)

/-! ### Header blocks that announce a body -/

/-- The session's parser accepts the header block of a request that may have a body, and reads the
length `n` in it. -/
structure BodyHead (head : Str) (n : CInt) : Prop where
  ends : EndsHeader head
  parser : ∃ parser, HttpRequestParser.parse {} head = (true, parser) ∧ hasBody parser.method ∧
    stoi (parser.getHeader "Content-Length".toList) = .ok n

/-- The session is about to respond for the first time. -/
structure Ready (w : W) (head : Str) (s : Session W) : Prop where
  world : s.world = w
  requestHeader : s.requestHeader = head
  response : s.response = {}
  outstanding : s.outstanding = []
  dispatched : s.dispatched = []

section

variable {head body : Str} {n : CInt} (h : BodyHead head n)

include h

/-- Behind the header block, the body is read to the length that is announced. -/
lemma processHeader_bodyHead (body : Str) : ∃ s : Session W, s.Ready w head ∧ s.contentLength = n ∧
    s.requestBody = body ∧
    processHeader env (some ip) (complete w head body) = finishBody env s := by
  obtain ⟨-, parser, hparse, hmethod, hlength⟩ := h
  have hne : parser.getHeader "Content-Length".toList ≠ [] := by
    intro hnil
    rw [hnil] at hlength
    cases hlength
  refine ⟨{ complete w head body with requestParser := parser, contentLength := n },
    ⟨rfl, rfl, rfl, rfl, rfl⟩, rfl, rfl, ?_⟩
  have hcomplete : HttpRequestParser.parse (complete w head body).requestParser
      (complete w head body).requestHeader = (true, parser) := hparse
  simp only [processHeader, hcomplete, processRequest, if_pos hmethod, if_neg hne, hlength]

/-- Once the announced length has arrived, the session has responded, to that much at least. -/
lemma run_bodyHead {chunks : List Chunk} (hbytes : chunks.flatMap Chunk.bytes = head ++ body)
    (hlen : n.toSize ≤ body.length) :
    ∃ s, s.Ready w head ∧ n.toSize ≤ s.requestBody.length ∧ s.requestBody <+: body ∧
      run env w (chunks.map (deliver ip)) = respondToRequest env s := by
  obtain ⟨chunks₁, chunk, chunks₂, body₁, rfl, -, -, rfl, hrun⟩ :=
    @run_completing W env w ip chunks head body h.ends hbytes
  obtain ⟨s, hready, hlength, rfl, hprocess⟩ := @processHeader_bodyHead W env w ip head n h body₁
  obtain ⟨body', hle, hpre, hfold⟩ := @foldl_finishBody W env ip s chunks₂ hready.outstanding
    (hlength ▸ hlen)
  refine ⟨{ s with requestBody := body' }, ⟨hready.world, hready.requestHeader, hready.response,
    hready.outstanding, hready.dispatched⟩, hlength ▸ hle, hpre, ?_⟩
  rw [hrun, hprocess, hfold]

/-- Until the announced length has arrived, the session waits for more. -/
lemma run_bodyHead_of_lt {chunks : List Chunk} (hbytes : chunks.flatMap Chunk.bytes = head ++ body)
    (hlen : body.length < n.toSize) :
    (run env w (chunks.map (deliver ip))).outstanding = [.read .body] := by
  obtain ⟨chunks₁, chunk, chunks₂, body₁, rfl, -, -, rfl, hrun⟩ :=
    @run_completing W env w ip chunks head body h.ends hbytes
  obtain ⟨s, hready, hlength, rfl, hprocess⟩ := @processHeader_bodyHead W env w ip head n h body₁
  rw [hrun, hprocess]
  exact foldl_finishBody_of_lt hready.outstanding (hlength ▸ hlen)

end

end Session

end SocialNetworkApp
