import SocialNetworkApp.Session.Answers
import SocialNetworkApp.Session.Segmentation

/-!
# The length that is promised

The announced length is an `int`, and the size of the body a `size_t`. Where they are compared, a
negative length becomes a size that no body reaches.
-/

namespace SocialNetworkApp

open SocialNetworkApp.Core

namespace Session

variable {W : Type} {env : Environment W} {w : W} {head : Str} {n : CInt}

/-- However the bytes are cut into reads, once those that are promised have arrived behind the header
block, no read is outstanding, and the session has responded. -/
def WaitsForPromised (env : Environment W) (w : W) (head : Str) (n : CInt) : Prop :=
  ∀ ip (chunks : List Chunk) body, chunks.flatMap Chunk.bytes = head ++ body →
    max n.val 0 ≤ body.length →
      (run env w (chunks.map (deliver ip))).Stopped ∧
        ∃ s : Session W, s.Ready w head ∧
          run env w (chunks.map (deliver ip)) = respondToRequest env s

/-- A session waits for what is promised only, exactly if the length is not negative. -/
theorem waitsForPromised_iff (h : BodyHead head n) :
    WaitsForPromised env w head n ↔ 0 ≤ n.val := by
  constructor
  · intro hwaits
    by_contra hneg
    have hsize := CInt.toSize_of_neg (not_le.mp hneg)
    have hbytes : (WireRequest.bytewise head).flatMap Chunk.bytes = head ++ [] := by
      rw [(WireRequest.isCut_bytewise head).bytes, List.append_nil]
    obtain ⟨hstopped, -⟩ := hwaits [] _ [] hbytes (by rw [List.length_nil]; omega)
    have hreads := @run_bodyHead_of_lt W env w [] head [] n h _ hbytes
      (by rw [List.length_nil]; omega)
    exact hstopped .body [] hreads
  · intro hpos ip chunks body hbytes hlen
    have hsize : n.toSize ≤ body.length := by
      rw [CInt.toSize_of_nonneg hpos]
      omega
    obtain ⟨s, hready, -, -, hrun⟩ := @run_bodyHead W env w ip head body n h chunks hbytes hsize
    refine ⟨?_, s, hready, hrun⟩
    rw [hrun]
    exact stopped_respondToRequest hready.outstanding

theorem waitsForPromised_iff_spelledByte :
    WaitsForPromised (WireRequest.reader WireRequest.spelledByte) () WireRequest.spelledByte.head 1 ↔
      0 ≤ (1 : CInt).val :=
  waitsForPromised_iff (WireRequest.spelledByte.bodyHead (Or.inl rfl)
    ⟨_, List.mem_singleton_self _, rfl⟩ rfl)

/-- A header block that announces a body of -1 bytes. -/
def negativeHead : Str := "POST /a HTTP/1.1\r\nContent-Length: -1\r\n\r\n".toList

/-- The session reads on for as long as fewer than `2 ^ 64 - 1` bytes follow the block. -/
theorem not_waitsForPromised :
    BodyHead negativeHead (CInt.wrap (-1)) ∧
      (∀ ip (chunks : List Chunk) body, chunks.flatMap Chunk.bytes = negativeHead ++ body →
        body.length < 18446744073709551615 →
          (run refusing () (chunks.map (deliver ip))).outstanding = [.read .body]) ∧
      ¬ WaitsForPromised refusing () negativeHead (CInt.wrap (-1)) := by
  have hhead : BodyHead negativeHead (CInt.wrap (-1)) :=
    ⟨⟨by decide +kernel, by decide +kernel⟩, _, rfl, Or.inl rfl, rfl⟩
  refine ⟨hhead, fun ip chunks body hbytes hlen => run_bodyHead_of_lt hhead hbytes hlen, ?_⟩
  intro hwaits
  obtain ⟨hstopped, -⟩ := hwaits [] [⟨negativeHead, by decide⟩] [] (List.flatMap_singleton _ _)
    (by decide)
  exact hstopped .body [] rfl

end Session

end SocialNetworkApp
