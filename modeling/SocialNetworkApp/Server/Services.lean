import SocialNetworkApp.Dispatch.Services
import SocialNetworkApp.Server.Service

/-!
# Services over the wire

The server with a dispatcher: the requests in its log are answered one after the other, so that
every store and every board behind the dispatcher goes on as if it were alone.
-/

namespace SocialNetworkApp

open SocialNetworkApp.Core

variable {F : Type}

/-- What the requests share, and what those that are to come leave to chance, one after another. -/
structure Shared (F : Type) where
  world : World F
  chances : Nat → Chance

/-- The dispatcher as the sessions use it. -/
def RequestDispatcher.environment (d : RequestDispatcher) (lib : Library F)
    (parseRequest : Str → Option Request) (serialize : Response → Str) :
    Environment (Shared F) where
  parseRequest := parseRequest
  dispatch req res shared :=
    (d.handleRequest lib (shared.chances 0) req res shared.world).map fun answer =>
      (answer.1, ⟨answer.2, fun n => shared.chances (n + 1)⟩)
  serialize := serialize

/-- The transactions of a log as calls of the dispatcher. -/
def callsOf (want : Request → Want) (chances : Nat → Chance) (log : List Transaction) :
    List ServiceCall :=
  log.mapIdx fun n x => ⟨x.request, want x.request, chances n, x.response⟩

namespace Server

variable {d : RequestDispatcher} {lib : Library F} {parseRequest : Str → Option Request}
  {serialize : Response → Str} {sv : Services} {w₀ : World F} {chances : Nat → Chance}
  {srv : Server (Shared F)} {es : List Event} {want : Request → Want}

/-- The requests of a log are answered one after the other. -/
lemma answered_of_served {log : List Transaction} {shared : Shared F}
    (h : Run (Transaction.Served (d.environment lib parseRequest serialize)) ⟨w₀, chances⟩ log
      shared)
    (hasks : ∀ x ∈ log, d.Asks sv x.request (want x.request))
    (hfaults : ∀ n, (chances n).faults = {} ∧ (chances n).meme.faults = {}) :
    Run (ServiceCall.Answered lib d sv) w₀ (callsOf want chances log) shared.world := by
  induction log generalizing w₀ chances with
  | nil =>
    cases h
    exact .nil w₀
  | cons x log ih =>
    cases h with
    | @cons _ shared' _ _ _ hserved hrest =>
      obtain ⟨⟨response, w⟩, hreply, heq⟩ := exists_of_map_eq_ok hserved
      obtain ⟨rfl, rfl⟩ := Prod.mk.inj heq
      rw [callsOf, List.mapIdx_cons]
      exact .cons ⟨hasks x List.mem_cons_self, (hfaults 0).1, (hfaults 0).2, hreply⟩
        (ih hrest (fun y hy => hasks y (List.mem_cons_of_mem _ hy)) fun n => hfaults (n + 1))

/-- Behind a running server, every store and every board goes on as if it were alone, in the order
of the log. -/
lemma independent_of_runs
    (h : Runs (d.environment lib parseRequest serialize) ⟨w₀, chances⟩ es srv)
    (hrunning : srv.terminated = none) (hready : sv.Ready w₀) (hfloat : lib.float.Reads)
    (htree : ¬ Meme.Parses lib.tree [])
    (hfaults : ∀ n, (chances n).faults = {} ∧ (chances n).meme.faults = {})
    (hasks : ∀ x ∈ srv.log, d.Asks sv x.request (want x.request))
    (hdrawn : Drawn (callsOf want chances srv.log)) :
    sv.Independent lib w₀ (callsOf want chances srv.log) srv.world.world :=
  (hready.run hfloat htree hdrawn
    (answered_of_served (sound_of_runs h hrunning).serves hasks hfaults)).independent

end Server

end SocialNetworkApp
