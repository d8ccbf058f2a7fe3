import SocialNetworkApp.Config.Paths
import SocialNetworkApp.Dispatch.Dispatcher

/-!
# Null pointers

The tables of an accepted configuration have a factory and a block for every location. A factory
returns the null pointer when it needs a root and its block does not begin with one.
-/

namespace SocialNetworkApp

open SocialNetworkApp.Core

/-- The first statement of the block is `root` with one argument. -/
def NginxConfig.BeginsWithRoot (c : NginxConfig) : Prop :=
  ∃ value child rest, c.statements = .mk ["root".toList, value] child :: rest

/-- The handlers that read a root from their block. -/
def HandlerType.needsRoot : HandlerType → Bool
  | .static | .crud | .meme => true
  | _ => false

/-! ### Blocks -/

lemma NginxConfig.rootArgument_eq_none_iff {c : NginxConfig} :
    c.rootArgument = none ↔ ¬ c.BeginsWithRoot := by
  obtain ⟨ss⟩ := c
  cases ss with
  | nil => simp [rootArgument, BeginsWithRoot]
  | cons s ss =>
    obtain ⟨ts, child⟩ := s
    match ts with
    | [] | [_] | _ :: _ :: _ :: _ => simp [rootArgument, BeginsWithRoot]
    | [name, value] => simp [rootArgument, BeginsWithRoot]

/-- The tables of an accepted configuration are read without running over a statement. -/
lemma dispatcher_of_parse {input : Str} {c : NginxConfig} (h : parse input = .returned true c) :
    ∃ d, c.dispatcher = some d ∧ c.getFactories = some d.handlerFactories ∧
      c.getArguments = some d.path2arguments ∧ d.config = c := by
  obtain ⟨ls, hlocations⟩ := exists_locationStatements_of_parse h
  obtain ⟨factories, hfactories⟩ : ∃ factories, c.getFactories = some factories := by
    rw [NginxConfig.getFactories, hlocations]
    exact ⟨_, rfl⟩
  obtain ⟨arguments, harguments⟩ : ∃ arguments, c.getArguments = some arguments := by
    rw [NginxConfig.getArguments, hlocations]
    exact ⟨_, rfl⟩
  refine ⟨⟨factories, arguments, c⟩, ?_, hfactories, harguments, rfl⟩
  rw [NginxConfig.dispatcher, hfactories, harguments]

/-! ### Matches -/

namespace RequestDispatcher

/-- The loop keeps the match it started with, or finds a key that begins the url. -/
lemma foldl_matchStep (url : Str) (keys : List Str) (best : CInt × Option Str) :
    (keys.foldl (matchStep url) best).2 = best.2 ∨
      ∃ key ∈ keys, key <+: url ∧ (keys.foldl (matchStep url) best).2 = some key := by
  induction keys generalizing best with
  | nil => exact Or.inl rfl
  | cons key keys ih =>
    rw [List.foldl_cons]
    rcases ih (matchStep url best key) with hsame | ⟨k, hk, hkurl, hfound⟩
    · rw [hsame, matchStep]
      split_ifs with hkey
      · exact Or.inr ⟨key, List.mem_cons_self, List.isPrefixOf_iff_prefix.mp hkey.1, rfl⟩
      · exact Or.inl rfl
    · exact Or.inr ⟨k, List.mem_cons_of_mem _ hk, hkurl, hfound⟩

/-- A match is a key, and begins the url. -/
lemma match_eq_some {d : RequestDispatcher} {url location : Str}
    (h : d.match_ url = some location) :
    (∃ factory, d.handlerFactories.lookup location = some factory) ∧ location <+: url := by
  rcases foldl_matchStep url (d.handlerFactories.keys.insertionSort (· ≤ ·)) (0, none) with
    hnone | ⟨key, hkey, hurl, hfound⟩
  · rw [match_, matchKeys, hnone] at h
    cases h
  · rw [match_, matchKeys, hfound, Option.some.injEq] at h
    subst h
    refine ⟨?_, hurl⟩
    rw [List.mem_insertionSort] at hkey
    exact Option.isSome_iff_exists.mp (AList.lookup_isSome.mpr hkey)

end RequestDispatcher

/-! ### Factories -/

section

variable {F : Type} {lib : Library F} {chance : Chance} {factory : FactoryPtr} {location url : Str}
  {c : NginxConfig} {w : World F}

/-- A factory returns the null pointer exactly when it misses its root. -/
lemma FactoryPtr.create_eq_null_iff (hurl : location <+: url) :
    (∃ w', factory.create lib chance location url c w = .ok (none, w')) ↔
      factory.type.needsRoot = true ∧ ¬ c.BeginsWithRoot := by
  rw [← NginxConfig.rootArgument_eq_none_iff, create]
  cases factory.type with
  | block | echo | fileNotFound | health => simp [HandlerType.needsRoot]
  | static =>
    have htake : url.take location.length = location := (List.prefix_iff_eq_take.mp hurl).symm
    cases hroot : c.rootArgument with
    | none => simp [StaticHandlerFactory.create, hroot, HandlerType.needsRoot]
    | some root => simp [StaticHandlerFactory.create, hroot, htake]
  | crud =>
    cases hroot : c.rootArgument with
    | none => simp [CrudHandlerFactory.create, hroot, Except.map, HandlerType.needsRoot]
    | some root =>
      simp only [CrudHandlerFactory.create, hroot]
      cases initializeEntityMap chance.uninitId chance.faults root ⟨w.fs, w.entityIds factory⟩ with
      | error e => simp [Except.map]
      | ok entityIds => simp [Except.map]
  | meme =>
    cases hroot : c.rootArgument with
    | none => simp [MemeHandlerFactory.create, hroot, Except.map, HandlerType.needsRoot]
    | some root =>
      simp only [MemeHandlerFactory.create, hroot]
      cases (w.memeModules factory).lookup root with
      | some memes => simp [Except.map]
      | none =>
        cases MemeModule.load lib.float chance.meme.faults chance.uninit w.fs root with
        | error e => simp [Except.map]
        | ok memes => simp [Except.map]

end

/-- The dispatcher of an accepted configuration dereferences no null pointer, for any request in any
state, exactly when the handler of the location it matches needs no root or finds one. -/
theorem handleRequest_ne_nullPointer_iff {input : Str} {c : NginxConfig}
    (h : parse input = .returned true c) :
    ∃ d, c.dispatcher = some d ∧ ∀ {F : Type} (lib : Library F) (chance : Chance) (req : Request)
      (res : Response) (w : World F),
      d.handleRequest lib chance req res w ≠ .error .nullPointer ↔
        ∀ location factory arguments, d.match_ req.target = some location →
          d.handlerFactories.lookup location = some factory →
            d.arguments location = some arguments →
              factory.type.needsRoot = true → arguments.BeginsWithRoot := by
  obtain ⟨d, hd, hfactories, harguments, hconfig⟩ := dispatcher_of_parse h
  refine ⟨d, hd, ?_⟩
  intro F lib chance req res w
  rw [RequestDispatcher.handleRequest]
  cases hmatch : d.match_ req.target with
  | none => simp
  | some location =>
    obtain ⟨⟨factory, hfactory⟩, hurl⟩ := RequestDispatcher.match_eq_some hmatch
    obtain ⟨block, hblock, arguments, hat⟩ :=
      lookup_getArguments_of_getFactories harguments hfactories hfactory
    have hargs : d.arguments location = some arguments := by
      rw [RequestDispatcher.arguments, hblock, hconfig]
      exact hat
    have hnull := @FactoryPtr.create_eq_null_iff F lib chance factory location req.target arguments w hurl
    have hcondition : (∀ location' factory' arguments', some location = some location' →
        d.handlerFactories.lookup location' = some factory' →
          d.arguments location' = some arguments' →
            factory'.type.needsRoot = true → arguments'.BeginsWithRoot) ↔
        ¬ (factory.type.needsRoot = true ∧ ¬ arguments.BeginsWithRoot) := by
      constructor
      · rintro hroot ⟨hneeds, hnot⟩
        exact hnot (hroot location factory arguments rfl hfactory hargs hneeds)
      · intro hroot location' factory' arguments' hlocation hfactory' hargs' hneeds
        obtain rfl := Option.some.inj hlocation
        rw [hfactory, Option.some.injEq] at hfactory'
        rw [hargs, Option.some.injEq] at hargs'
        subst hfactory' hargs'
        by_contra hnot
        exact hroot ⟨hneeds, hnot⟩
    rw [hcondition, ← hnull]
    simp only [RequestDispatcher.handleAt, hargs, hfactory]
    cases factory.create lib chance location req.target arguments w with
    | error e => simp
    | ok made =>
      obtain ⟨handler, w'⟩ := made
      cases handler with
      | none => simp
      | some handler =>
        simp only
        cases handler.handleRequest lib chance factory req res w' with
        | error e => simp
        | ok reply => simp

/-- The configuration with one location and these statements in its block. -/
def oneLocation (location handler : Str) (ss : List NginxConfigStatement) : NginxConfig :=
  .mk [.mk ["location".toList, location, handler] (some (.mk ss))]

lemma parse_oneLocation {location handler : Str} {ts : List Token} {ss : List NginxConfigStatement}
    (hlocation : TokenText location) (hhandler : TokenText handler) (hss : ConfigOf ts ss)
    (htexts : HasText ts) :
    parse ((oneLocation location handler ss).toStr 0) =
      .returned true (oneLocation location handler ss) := by
  have hstatement := StatementOf.block (show ["location".toList, location, handler] ≠ [] by simp)
    (show Token.type ⟨.startBlock, ['{']⟩ = .startBlock from rfl)
    (show Token.type ⟨.endBlock, ['}']⟩ = .endBlock from rfl) hss
  apply parse_toStr_of_configOf hstatement.toConfigOf
  intro t ht htype
  simp only [List.map_cons, List.map_nil, List.cons_append, List.nil_append, List.mem_cons,
    List.mem_append, List.not_mem_nil, or_false] at ht
  rcases ht with rfl | rfl | rfl | rfl | ht | rfl
  · exact .bare (c := 'l') (s := "ocation".toList) (by decide) (List.forall_iff_forall_mem.mp (by decide))
  · exact hlocation
  · exact hhandler
  · cases htype
  · exact htexts t ht htype
  · cases htype

/-- A CRUD handler needs a root, and finds one. -/
theorem handleRequest_ne_nullPointer_iff_crud :
    ∃ d, (oneLocation "/a".toList "CrudHandler".toList [.mk ["root".toList, ['r']] none]).dispatcher =
        some d ∧
      d.handlerFactories.lookup "/a".toList = some ⟨.crud, 0⟩ ∧ HandlerType.crud.needsRoot = true ∧
      ∀ {F : Type} (lib : Library F) (chance : Chance) (req : Request) (res : Response)
        (w : World F),
        d.handleRequest lib chance req res w ≠ .error .nullPointer ↔
          ∀ location factory arguments, d.match_ req.target = some location →
            d.handlerFactories.lookup location = some factory →
              d.arguments location = some arguments →
                factory.type.needsRoot = true → arguments.BeginsWithRoot := by
  have hroot := StatementOf.simple (show ["root".toList, ['r']] ≠ [] by simp)
    (show Token.type ⟨.statementEnd, [';']⟩ = .statementEnd from rfl)
  have htexts : HasText (["root".toList, ['r']].map (Token.mk .normal) ++
      [⟨.statementEnd, [';']⟩]) := by
    intro t ht htype
    simp only [List.map_cons, List.map_nil, List.cons_append, List.nil_append, List.mem_cons,
      List.not_mem_nil, or_false] at ht
    rcases ht with rfl | rfl | rfl
    · exact .bare (c := 'r') (s := "oot".toList) (by decide) (List.forall_iff_forall_mem.mp (by decide))
    · exact .bare (c := 'r') (s := []) (by decide) (List.forall_iff_forall_mem.mp (by decide))
    · cases htype
  obtain ⟨d, hd, hreturns⟩ := handleRequest_ne_nullPointer_iff (parse_oneLocation
    (.bare (c := '/') (s := ['a']) (by decide) (List.forall_iff_forall_mem.mp (by decide)))
    (.bare (c := 'C') (s := "rudHandler".toList) (by decide) (List.forall_iff_forall_mem.mp (by decide)))
    hroot.toConfigOf htexts)
  refine ⟨d, hd, ?_, rfl, hreturns⟩
  cases hd
  rfl

/-- The handler of an empty block of a CRUD location is the null pointer. -/
theorem handleRequest_nullPointer_crud :
    parse ((oneLocation "/a".toList "CrudHandler".toList []).toStr 0) =
        .returned true (oneLocation "/a".toList "CrudHandler".toList []) ∧
      ∃ d, (oneLocation "/a".toList "CrudHandler".toList []).dispatcher = some d ∧
        ∀ {F : Type} (lib : Library F) (chance : Chance) (res : Response) (w : World F),
          d.handleRequest lib chance ⟨.get, "/a".toList, [], []⟩ res w = .error .nullPointer := by
  refine ⟨parse_oneLocation
    (.bare (c := '/') (s := ['a']) (by decide) (List.forall_iff_forall_mem.mp (by decide)))
    (.bare (c := 'C') (s := "rudHandler".toList) (by decide) (List.forall_iff_forall_mem.mp (by decide)))
    .nil (by intro t ht; cases ht), _, rfl, ?_⟩
  intro F lib chance res w
  rfl

end SocialNetworkApp
