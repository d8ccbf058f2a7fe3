import SocialNetworkApp.Config.Syntax
import SocialNetworkApp.Core.Table

/-!
# Locations and their handlers

`getArguments` and `getFactories` pass over the same statements, but only the second looks at the
name of the handler. They agree on the block of a location unless an unknown name comes last.
-/

namespace SocialNetworkApp

open SocialNetworkApp.Core

/-- The loop of `removeTrailingSlashes`, on the reversed string. -/
def popSlashes : Str → Str
  | '/' :: c :: rest => popSlashes (c :: rest)
  | input => input

def removeTrailingSlashes (input : Str) : Str := (popSlashes input.reverse).reverse

/-- The classes below `RequestHandlerFactory`. -/
inductive HandlerType where
  | static
  | echo
  | fileNotFound
  | crud
  | health
  | block
  | meme
deriving DecidableEq

/-- `RequestHandlerFactoryFactory::createHandlerFactory`; `none` is the null pointer. -/
def createHandlerFactory (name : Str) : Option HandlerType :=
  if name = "StaticHandler".toList then some .static
  else if name = "EchoHandler".toList then some .echo
  else if name = "FileNotFoundHandler".toList then some .fileNotFound
  else if name = "CrudHandler".toList then some .crud
  else if name = "HealthHandler".toList then some .health
  else if name = "BlockHandler".toList then some .block
  else if name = "MemeHandler".toList then some .meme
  else none

/-- A pointer to the block of a top level statement: the place of the statement. -/
abbrev BlockPtr := Nat

/-- A pointer to a factory: its class, and the statement it was made for. -/
structure FactoryPtr where
  type : HandlerType
  statement : BlockPtr
deriving DecidableEq

/-- A location statement with its three tokens, `location` itself left out, and its block. -/
structure LocationStatement where
  location : Str
  handler : Str
  block : BlockPtr
deriving DecidableEq

/-- The tests both loops make on a statement: `none` when it has no first token, `some none` when
the loop has nothing to do for it. -/
def locationStatementAt : NginxConfigStatement × BlockPtr → Option (Option LocationStatement)
  | (s, place) => s.tokens.head?.map fun first =>
    if first = "location".toList then
      match s.tokens, s.childBlock with
      | [_, location, handler], some _ => some ⟨location, handler, place⟩
      | _, _ => none
    else none

/-- The location statements both loops find; `none` when a token is accessed that is not there. -/
def NginxConfig.locationStatements (c : NginxConfig) : Option (List LocationStatement) :=
  (c.statements.zipIdx.mapM locationStatementAt).map (List.filterMap id)

namespace LocationStatement

def key (l : LocationStatement) : Str := removeTrailingSlashes l.location

/-- The factory made for the statement, if its handler is known. -/
def factory (l : LocationStatement) : Option FactoryPtr :=
  (createHandlerFactory l.handler).map fun type => ⟨type, l.block⟩

end LocationStatement

/-- `NginxConfig::getArguments`, with an empty `pd`. -/
def NginxConfig.getArguments (c : NginxConfig) : Option (Table Str BlockPtr) :=
  c.locationStatements.map (Table.writeAll LocationStatement.key (fun l => some l.block) ∅)

/-- `NginxConfig::getFactories`, with an empty `pd`. -/
def NginxConfig.getFactories (c : NginxConfig) : Option (Table Str FactoryPtr) :=
  c.locationStatements.map (Table.writeAll LocationStatement.key LocationStatement.factory ∅)

/-- The block a pointer points to. -/
def NginxConfig.blockAt (c : NginxConfig) (p : BlockPtr) : Option NginxConfig :=
  c.statements[p]?.bind NginxConfigStatement.childBlock

/-! ### The statements found -/

lemma mapM_option_mem {A B : Type*} {f : A → Option B} {l : List A} {r : List B}
    (h : l.mapM f = some r) : ∀ b ∈ r, ∃ a ∈ l, f a = some b := by
  induction l generalizing r with
  | nil =>
    obtain rfl : [] = r := by simpa using h
    simp
  | cons a l ih =>
    simp only [List.mapM_cons, Option.pure_def, Option.bind_eq_bind, Option.bind_eq_some_iff,
      Option.some.injEq] at h
    obtain ⟨b, hb, bs, hbs, rfl⟩ := h
    intro x hx
    rcases List.mem_cons.mp hx with rfl | hx
    · exact ⟨a, by simp, hb⟩
    · obtain ⟨y, hy, hyx⟩ := ih hbs x hx
      exact ⟨y, by simp [hy], hyx⟩

lemma mapM_option_isSome_iff {A B : Type*} {f : A → Option B} {l : List A} :
    (l.mapM f).isSome ↔ ∀ a ∈ l, (f a).isSome := by
  induction l with
  | nil => simp
  | cons a l ih =>
    rw [List.forall_mem_cons, ← ih, List.mapM_cons]
    cases f a with
    | none => simp
    | some b => cases l.mapM f <;> simp

lemma isSome_locationStatementAt {s : NginxConfigStatement} {place : BlockPtr} :
    (locationStatementAt (s, place)).isSome ↔ s.tokens ≠ [] := by
  rw [locationStatementAt, Option.isSome_map, List.isSome_head?]

/-- A location statement that was found stands at its place. -/
lemma statement_of_mem {c : NginxConfig} {ls : List LocationStatement}
    (h : c.locationStatements = some ls) {l : LocationStatement} (hl : l ∈ ls) :
    ∃ s, c.statements[l.block]? = some s ∧ locationStatementAt (s, l.block) = some (some l) := by
  obtain ⟨r, hr, rfl⟩ := Option.map_eq_some_iff.mp h
  obtain ⟨o, ho, hol⟩ := List.mem_filterMap.mp hl
  obtain rfl : o = some l := hol
  obtain ⟨⟨s, place⟩, hs, hfound⟩ := mapM_option_mem hr _ ho
  have hplace : l.block = place := by
    simp only [locationStatementAt, Option.map_eq_some_iff] at hfound
    obtain ⟨first, -, hfirst⟩ := hfound
    split_ifs at hfirst
    split at hfirst
    · rw [← Option.some.inj hfirst]
    · cases hfirst
  subst hplace
  exact ⟨s, List.mem_zipIdx_iff_getElem?.mp hs, hfound⟩

lemma eq_of_block_eq {c : NginxConfig} {ls : List LocationStatement}
    (h : c.locationStatements = some ls) {l l' : LocationStatement} (hl : l ∈ ls) (hl' : l' ∈ ls)
    (hblock : l.block = l'.block) : l = l' := by
  obtain ⟨s, hs, hfound⟩ := statement_of_mem h hl
  obtain ⟨s', hs', hfound'⟩ := statement_of_mem h hl'
  rw [← hblock] at hs' hfound'
  obtain rfl : s = s' := by simpa [hs] using hs'
  simpa [hfound] using hfound'

/-! ### The two tables -/

/-- The block under a key is that of the last location statement with this key. -/
lemma lookup_getArguments {c : NginxConfig} {ls : List LocationStatement}
    (h : c.locationStatements = some ls) {args : Table Str BlockPtr}
    (hargs : c.getArguments = some args) (k : Str) :
    args.lookup k = (ls.filter fun l => l.key = k).getLast?.map LocationStatement.block := by
  obtain rfl : Table.writeAll LocationStatement.key (fun l => some l.block) ∅ ls = args := by
    simpa [NginxConfig.getArguments, h] using hargs
  rw [Table.lookup_writeAll, AList.lookup_empty, Option.or_none, ← List.getLast?_map]
  simp

/-- The factory under a key was made for a location statement with this key. -/
lemma factory_of_lookup {c : NginxConfig} {ls : List LocationStatement}
    (h : c.locationStatements = some ls) {facs : Table Str FactoryPtr}
    (hfacs : c.getFactories = some facs) {k : Str} {f : FactoryPtr} (hf : facs.lookup k = some f) :
    ∃ l ∈ ls, l.key = k ∧ l.factory = some f := by
  obtain rfl : Table.writeAll LocationStatement.key LocationStatement.factory ∅ ls = facs := by
    simpa [NginxConfig.getFactories, h] using hfacs
  rw [Table.lookup_writeAll, AList.lookup_empty, Option.or_none] at hf
  obtain ⟨l, hl, hfactory⟩ := List.mem_filterMap.mp (List.mem_of_getLast? hf)
  obtain ⟨hmem, hk⟩ := List.mem_filter.mp hl
  exact ⟨l, hmem, by simpa using hk, hfactory⟩

/-- Every location with a factory has a block. -/
lemma lookup_getArguments_of_getFactories {c : NginxConfig} {args : Table Str BlockPtr}
    {facs : Table Str FactoryPtr} (hargs : c.getArguments = some args)
    (hfacs : c.getFactories = some facs) {k : Str} {f : FactoryPtr}
    (hf : facs.lookup k = some f) :
    ∃ block, args.lookup k = some block ∧ ∃ arguments, c.blockAt block = some arguments := by
  obtain ⟨ls, h, -⟩ := Option.map_eq_some_iff.mp hfacs
  obtain ⟨l, hl, hk, -⟩ := factory_of_lookup h hfacs hf
  obtain ⟨last, hlast⟩ : ∃ last, (ls.filter fun l => l.key = k).getLast? = some last :=
    ⟨_, List.getLast?_eq_some_getLast (List.ne_nil_of_mem (List.mem_filter.mpr ⟨hl, by simpa using hk⟩))⟩
  obtain ⟨s, hs, hfound⟩ := statement_of_mem h (List.mem_filter.mp (List.mem_of_getLast? hlast)).1
  refine ⟨last.block, by rw [lookup_getArguments h hargs, hlast]; rfl, ?_⟩
  simp only [locationStatementAt, Option.map_eq_some_iff] at hfound
  obtain ⟨first, -, hfirst⟩ := hfound
  split_ifs at hfirst
  split at hfirst
  · exact ⟨_, by rw [NginxConfig.blockAt, hs, Option.bind_some]; assumption⟩
  · cases hfirst

/-- A factory comes with the block of its own location statement exactly when, for each location
for which some statement names a known handler, the last statement does. -/
theorem getFactories_block_iff {c : NginxConfig} {ls : List LocationStatement}
    {args : Table Str BlockPtr} {facs : Table Str FactoryPtr}
    (h : c.locationStatements = some ls) (hargs : c.getArguments = some args)
    (hfacs : c.getFactories = some facs) :
    (∀ k f, facs.lookup k = some f → args.lookup k = some f.statement) ↔
      ∀ k last, (∃ l ∈ ls, l.key = k ∧ createHandlerFactory l.handler ≠ none) →
        (ls.filter fun l => l.key = k).getLast? = some last →
          createHandlerFactory last.handler ≠ none := by
  have hfacs' : Table.writeAll LocationStatement.key LocationStatement.factory ∅ ls = facs := by
    simpa [NginxConfig.getFactories, h] using hfacs
  constructor
  · rintro hblock k last ⟨l, hl, hk, hknown⟩ hlast hunknown
    obtain ⟨type, htype⟩ := Option.ne_none_iff_exists'.mp hknown
    obtain ⟨f, hf⟩ : ∃ f, facs.lookup k = some f := by
      rw [← hfacs', Table.lookup_writeAll_empty_isSome]
      exact ⟨l, hl, hk, ⟨type, l.block⟩, by simp [LocationStatement.factory, htype]⟩
    obtain ⟨l', hl', -, hfactory⟩ := factory_of_lookup h hfacs hf
    obtain ⟨type', htype', rfl⟩ := Option.map_eq_some_iff.mp hfactory
    -- the block under the key is that of the last statement, so both are the same statement
    have hsame : last.block = l'.block := by
      have := hblock k _ hf
      rw [lookup_getArguments h hargs, hlast] at this
      exact Option.some.inj this
    obtain rfl := eq_of_block_eq h (List.mem_filter.mp (List.mem_of_getLast? hlast)).1 hl' hsame
    rw [htype'] at hunknown
    cases hunknown
  · intro hlast k f hf
    obtain ⟨l, hl, hk, hfactory⟩ := factory_of_lookup h hfacs hf
    obtain ⟨type, htype, -⟩ := Option.map_eq_some_iff.mp hfactory
    have hne : (ls.filter fun l => l.key = k) ≠ [] :=
      List.ne_nil_of_mem (List.mem_filter.mpr ⟨hl, by simpa using hk⟩)
    have hlast' := List.getLast?_eq_some_getLast hne
    obtain ⟨type', htype'⟩ := Option.ne_none_iff_exists'.mp
      (hlast k _ ⟨l, hl, hk, by simp [htype]⟩ hlast')
    have hfound := Table.lookup_writeAll_empty_of_last hlast'
      (show LocationStatement.factory _ = some ⟨type', _⟩ by rw [LocationStatement.factory, htype']; rfl)
    rw [hfacs', hf, Option.some.injEq] at hfound
    rw [lookup_getArguments h hargs, hlast', hfound]
    rfl

/-- `location /a first {}` and `location /a/ second {}`. -/
def sameLocationTwice (first second : Str) : NginxConfig :=
  .mk [.mk ["location".toList, "/a".toList, first] (some (.mk [])),
    .mk ["location".toList, "/a/".toList, second] (some (.mk []))]

theorem getFactories_block_iff_echo_static :
    ∃ ls args facs,
      (sameLocationTwice "EchoHandler".toList "StaticHandler".toList).locationStatements = some ls ∧
      (sameLocationTwice "EchoHandler".toList "StaticHandler".toList).getArguments = some args ∧
      (sameLocationTwice "EchoHandler".toList "StaticHandler".toList).getFactories = some facs ∧
      ((∀ k f, facs.lookup k = some f → args.lookup k = some f.statement) ↔
        ∀ k last, (∃ l ∈ ls, l.key = k ∧ createHandlerFactory l.handler ≠ none) →
          (ls.filter fun l => l.key = k).getLast? = some last →
            createHandlerFactory last.handler ≠ none) := by
  refine ⟨_, _, _, rfl, rfl, rfl, ?_⟩
  exact @getFactories_block_iff (sameLocationTwice "EchoHandler".toList "StaticHandler".toList)
    _ _ _ rfl rfl rfl

/-- The echo handler gets the block of the second statement, whose handler is not known. -/
theorem getFactories_block_unknown_handler :
    ∃ args facs,
      (sameLocationTwice "EchoHandler".toList "FooHandler".toList).getArguments = some args ∧
      (sameLocationTwice "EchoHandler".toList "FooHandler".toList).getFactories = some facs ∧
      ¬ ∀ k f, facs.lookup k = some f → args.lookup k = some f.statement := by
  refine ⟨_, _, rfl, rfl, ?_⟩
  intro h
  have hblock := h "/a".toList ⟨.echo, 0⟩ (by decide)
  revert hblock
  decide

end SocialNetworkApp
