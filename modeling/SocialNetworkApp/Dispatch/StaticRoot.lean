import SocialNetworkApp.Core.Lexical
import SocialNetworkApp.Dispatch.NullPointers

/-!
# Static files and their root

A static file is named by the root and the text of the url behind the location, put side by side. It
lies in the root as long as this text begins with a slash and its `..` do not lead out of the root
for good; text without a slash is glued to the last component of the root.
-/

namespace SocialNetworkApp

open SocialNetworkApp.Core

/-! ### Roots of accepted configurations -/

lemma ConfigOf.statement {ts : List Token} {ss : List NginxConfigStatement} (h : ConfigOf ts ss)
    (hts : HasText ts) {s : NginxConfigStatement} (hs : s ∈ ss) :
    ∃ us, StatementOf us s ∧ HasText us := by
  induction ss generalizing ts with
  | nil => cases hs
  | cons s' ss ih =>
    cases h with
    | cons hfirst hrest =>
      rcases List.mem_cons.mp hs with rfl | hs
      · exact ⟨_, hfirst, hts.of_append.1⟩
      · exact ih hrest hts.of_append.2 hs

lemma StatementOf.tokens_text {ts : List Token} {s : NginxConfigStatement} (h : StatementOf ts s)
    (hts : HasText ts) : ∀ v ∈ s.tokens, TokenText v := by
  cases h with
  | simple => exact hts.of_append.1.texts
  | block => exact hts.of_append.1.texts

lemma StatementOf.child {ts : List Token} {s : NginxConfigStatement} (h : StatementOf ts s)
    (hts : HasText ts) {c : NginxConfig} (hc : s.childBlock = some c) :
    ∃ us, ConfigOf us c.statements ∧ HasText us := by
  cases h with
  | simple => cases hc
  | block hvs hopening hclosing hss =>
    obtain rfl := Option.some.inj hc
    refine ⟨_, hss, ?_⟩
    exact fun t ht => hts t (by simp [ht])

lemma removeTrailingSlashes_ne_nil {input : Str} (h : input ≠ []) :
    removeTrailingSlashes input ≠ [] := by
  have hpop : ∀ s : Str, s ≠ [] → popSlashes s ≠ [] := by
    intro s
    fun_induction popSlashes s with
    | case1 c rest ih => exact fun _ => ih (List.cons_ne_nil _ _)
    | case2 s hs => exact id
  exact List.reverse_ne_nil_iff.mpr (hpop _ (List.reverse_ne_nil_iff.mpr h))

/-- A block of an accepted configuration names no empty root. -/
lemma rootArgument_ne_nil {input : Str} {c : NginxConfig} (h : parse input = .returned true c)
    {d : RequestDispatcher} (hd : c.dispatcher = some d) {location root : Str}
    {arguments : NginxConfig} (harguments : d.arguments location = some arguments)
    (hroot : arguments.rootArgument = some root) : root ≠ [] := by
  obtain ⟨ts, hts, htexts⟩ := configOf_of_parse h
  obtain ⟨d', hd', -, -, hconfig⟩ := dispatcher_of_parse h
  obtain rfl : d' = d := Option.some.inj (hd'.symm.trans hd)
  obtain ⟨block, -, hblock⟩ := Option.bind_eq_some_iff.mp harguments
  rw [hconfig] at hblock
  obtain ⟨s, hs, hchild⟩ := Option.bind_eq_some_iff.mp hblock
  obtain ⟨us, hus, hustexts⟩ := hts.statement htexts (List.mem_of_getElem? hs)
  obtain ⟨vs, hvs, hvstexts⟩ := hus.child hustexts hchild
  simp only [NginxConfig.rootArgument] at hroot
  cases hstatements : arguments.statements with
  | nil => simp [hstatements] at hroot
  | cons s' ss =>
    rw [hstatements] at hroot hvs
    obtain ⟨ws, hws, hwstexts⟩ := hvs.statement hvstexts List.mem_cons_self
    have htokens := hws.tokens_text hwstexts
    split at hroot
    · cases hroot
    · obtain ⟨rfl, rfl⟩ := List.cons.inj ‹_›
      split at hroot
      · rename_i name value hvalue
        split_ifs at hroot
        rw [← Option.some.inj hroot]
        exact removeTrailingSlashes_ne_nil (htokens value (by simp [hvalue])).ne_nil
      · cases hroot

/-! ### The text behind a location -/

/-- From where the text `rest` behind a root is followed, and its components: from the root itself if
a slash stands between them, otherwise from the directory of the root's last component. -/
def followedFrom (cwd : List Str) (root rest : Str) : List Str × List Str :=
  match rest with
  | [] => (lexical cwd root, [])
  | '/' :: names => (lexical cwd root, names.splitOn '/')
  | rest => (lastDirectory cwd root, gluedTo (lastComponent root) rest)

/-- A root with text behind it leads to the root or below it exactly when the text, followed from
where it begins, stays inside. -/
lemma prefix_lexical_iff {cwd : List Str} {root : Str} (hroot : root ≠ []) (rest : Str) :
    lexical cwd root <+: lexical cwd (root ++ rest) ↔
      StaysInside (lexical cwd root) (followedFrom cwd root rest).1
        (followedFrom cwd root rest).2 := by
  have hself : ∀ cs : List Str, lexical cwd root <+: cs.foldl stepName (lexical cwd root) ↔
      StaysInside (lexical cwd root) (lexical cwd root) cs :=
    prefix_foldl_stepName_iff (lexical cwd root) []
  unfold followedFrom
  split
  · rw [List.append_nil]
    exact hself []
  · rename_i names
    rw [lexical_append_cons hroot]
    exact hself (names.splitOn '/')
  · rw [lexical_glued hroot, lexical_eq_stepName cwd root]
    exact prefix_foldl_stepName_iff _ _ _

/-- The file made for a url is the root or lies in it, resolved lexically, exactly when the text
behind the location stays inside the root. -/
theorem staticHandler_inside_iff {F : Type} {input : Str} {c : NginxConfig}
    (h : parse input = .returned true c) {d : RequestDispatcher} (hd : c.dispatcher = some d)
    {location url : Str} (hmatch : d.match_ url = some location) {arguments : NginxConfig}
    (harguments : d.arguments location = some arguments) {root : Str}
    (hroot : arguments.rootArgument = some root) (cwd : List Str) :
    ∃ file, (StaticHandlerFactory.create location url arguments : Option (Handler F)) =
        some (.static file) ∧
      (lexical cwd root <+: lexical cwd file ↔
        StaysInside (lexical cwd root) (followedFrom cwd root (url.drop location.length)).1
          (followedFrom cwd root (url.drop location.length)).2) := by
  obtain ⟨-, hurl⟩ := RequestDispatcher.match_eq_some hmatch
  have htake : url.take location.length = location := (List.prefix_iff_eq_take.mp hurl).symm
  refine ⟨root ++ url.drop location.length, ?_, ?_⟩
  · simp only [StaticHandlerFactory.create, hroot, htake, if_true]
  · exact prefix_lexical_iff (rootArgument_ne_nil h hd harguments hroot) _

/-- The configuration with one location, whose block names a root. -/
def oneRoot (location handler root : Str) : NginxConfig :=
  .mk [.mk ["location".toList, location, handler]
    (some (.mk [.mk ["root".toList, root] none]))]

/-- A location statement whose block names a root, and its tokens. -/
lemma exists_statementOf_oneRoot {location handler root : Str} (hlocation : TokenText location)
    (hhandler : TokenText handler) (hroot : TokenText root) :
    ∃ ts, StatementOf ts (.mk ["location".toList, location, handler]
        (some (.mk [.mk ["root".toList, root] none]))) ∧ HasText ts := by
  have hstatement := StatementOf.block (show ["location".toList, location, handler] ≠ [] by simp)
    (show Token.type ⟨.startBlock, ['{']⟩ = .startBlock from rfl)
    (show Token.type ⟨.endBlock, ['}']⟩ = .endBlock from rfl)
    (StatementOf.simple (show ["root".toList, root] ≠ [] by simp)
      (show Token.type ⟨.statementEnd, [';']⟩ = .statementEnd from rfl)).toConfigOf
  refine ⟨_, hstatement, ?_⟩
  intro t ht htype
  simp only [List.map_cons, List.map_nil, List.cons_append, List.nil_append, List.mem_cons,
    List.not_mem_nil, or_false] at ht
  rcases ht with rfl | rfl | rfl | rfl | rfl | rfl | rfl | rfl
  · exact .bare (c := 'l') (s := "ocation".toList) (by decide) (List.forall_iff_forall_mem.mp (by decide))
  · exact hlocation
  · exact hhandler
  · cases htype
  · exact .bare (c := 'r') (s := "oot".toList) (by decide) (List.forall_iff_forall_mem.mp (by decide))
  · exact hroot
  · cases htype
  · cases htype

lemma parse_oneRoot {location handler root : Str} (hlocation : TokenText location)
    (hhandler : TokenText handler) (hroot : TokenText root) :
    parse ((oneRoot location handler root).toStr 0) =
      .returned true (oneRoot location handler root) := by
  obtain ⟨ts, hts, htexts⟩ := exists_statementOf_oneRoot hlocation hhandler hroot
  exact parse_toStr_of_configOf hts.toConfigOf htexts 0

lemma parse_oneRoot_static {location : Str} (hlocation : TokenText location) :
    parse ((oneRoot location "StaticHandler".toList "/r".toList).toStr 0) =
      .returned true (oneRoot location "StaticHandler".toList "/r".toList) :=
  parse_oneRoot hlocation
    (.bare (c := 'S') (s := "taticHandler".toList) (by decide)
      (List.forall_iff_forall_mem.mp (by decide)))
    (.bare (c := '/') (s := ['r']) (by decide) (List.forall_iff_forall_mem.mp (by decide)))

/-- The url `/s/a` below the location `/s`. -/
theorem staticHandler_inside_iff_slash :
    ∃ file, (StaticHandlerFactory.create "/s".toList "/s/a".toList
          (.mk [.mk ["root".toList, "/r".toList] none]) : Option (Handler Unit)) =
        some (.static file) ∧
      (lexical [] "/r".toList <+: lexical [] file ↔
        StaysInside (lexical [] "/r".toList)
          (followedFrom [] "/r".toList ("/s/a".toList.drop "/s".toList.length)).1
          (followedFrom [] "/r".toList ("/s/a".toList.drop "/s".toList.length)).2) :=
  staticHandler_inside_iff
    (parse_oneRoot_static
      (.bare (c := '/') (s := ['s']) (by decide) (List.forall_iff_forall_mem.mp (by decide))))
    rfl rfl rfl rfl []

/-- The url `/a` below the location `/`: the slash goes with the location. -/
theorem staticHandler_glued :
    parse ((oneRoot ['/'] "StaticHandler".toList "/r".toList).toStr 0) =
        .returned true (oneRoot ['/'] "StaticHandler".toList "/r".toList) ∧
      ∃ d arguments, (oneRoot ['/'] "StaticHandler".toList "/r".toList).dispatcher = some d ∧
        d.match_ "/a".toList = some ['/'] ∧ d.arguments ['/'] = some arguments ∧
        arguments.rootArgument = some "/r".toList ∧
        ∀ F : Type, (StaticHandlerFactory.create ['/'] "/a".toList arguments : Option (Handler F)) =
            some (.static "/ra".toList) ∧
          ¬ lexical [] "/r".toList <+: lexical [] "/ra".toList := by
  refine ⟨parse_oneRoot_static (.bare (c := '/') (s := []) (by decide) (by simp)), _, _, rfl, rfl,
    rfl, rfl, ?_⟩
  intro F
  refine ⟨rfl, ?_⟩
  show ¬ [['r']] <+: [['r', 'a']]
  decide

end SocialNetworkApp
