import SocialNetworkApp.Config.Paths
import SocialNetworkApp.Config.RoundTrip

/-!
# Sites

A site is a port and its locations. It is written as a port statement and a statement for every
location, in any order, and what is written is parsed to these statements.
-/

namespace SocialNetworkApp

open SocialNetworkApp.Core

/-- The name of the class in a configuration. -/
def HandlerType.name : HandlerType → Str
  | .static => "StaticHandler".toList
  | .echo => "EchoHandler".toList
  | .fileNotFound => "FileNotFoundHandler".toList
  | .crud => "CrudHandler".toList
  | .health => "HealthHandler".toList
  | .block => "BlockHandler".toList
  | .meme => "MemeHandler".toList

/-- A location of a site: its path, the class of its handlers, and the root in its block. -/
structure SiteLocation where
  path : Str
  type : HandlerType
  root : Option Str
deriving DecidableEq

namespace SiteLocation

/-- The path as the dispatcher knows it. -/
def key (l : SiteLocation) : Str := removeTrailingSlashes l.path

/-- The root as the handlers know it. -/
def rootArgument (l : SiteLocation) : Option Str := l.root.map removeTrailingSlashes

def block (l : SiteLocation) : NginxConfig :=
  match l.root with
  | none => .mk []
  | some root => .mk [.mk ["root".toList, root] none]

def statement (l : SiteLocation) : NginxConfigStatement :=
  .mk ["location".toList, l.path, l.type.name] (some l.block)

end SiteLocation

/-- A port, and locations with different paths, whose texts can be written as tokens. -/
structure Site where
  port : Nat
  locations : List SiteLocation
  port_le : port ≤ 65535
  locations_ne_nil : locations ≠ []
  nodup : (locations.map SiteLocation.key).Nodup
  key_length_lt : ∀ l ∈ locations, l.key.length < 2147483648
  path_text : ∀ l ∈ locations, TokenText l.path
  root_text : ∀ l ∈ locations, ∀ root, l.root = some root → TokenText root

namespace Site

variable {site : Site} {ss : List NginxConfigStatement} {input : Str}

def keys (site : Site) : List Str := site.locations.map SiteLocation.key

def statements (site : Site) : List NginxConfigStatement :=
  .mk ["port".toList, Nat.toDigits 10 site.port] none ::
    site.locations.map SiteLocation.statement

/-- The text is parsed to the statements of the site, in any order. -/
def SpelledBy (site : Site) (input : Str) : Prop :=
  ∃ ss, parse input = .returned true (.mk ss) ∧ ss.Perm site.statements

/-! ### Statements -/

lemma location_of_key_eq {l l' : SiteLocation} (hl : l ∈ site.locations)
    (hl' : l' ∈ site.locations) (hkey : l.key = l'.key) : l = l' :=
  List.inj_on_of_nodup_map site.nodup hl hl' hkey

lemma mem_statements {s : NginxConfigStatement} (h : s ∈ site.statements) :
    s = .mk ["port".toList, Nat.toDigits 10 site.port] none ∨
      ∃ l ∈ site.locations, s = l.statement := by
  rcases List.mem_cons.mp h with rfl | h
  · exact Or.inl rfl
  · obtain ⟨l, hl, rfl⟩ := List.mem_map.mp h
    exact Or.inr ⟨l, hl, rfl⟩

lemma locationStatementAt_port (v : Str) (place : BlockPtr) :
    locationStatementAt (.mk ["port".toList, v] none, place) = some none :=
  congrArg some (if_neg (by decide))

lemma locationStatementAt_location (l : SiteLocation) (place : BlockPtr) :
    locationStatementAt (l.statement, place) = some (some ⟨l.path, l.type.name, place⟩) :=
  congrArg some (if_pos rfl)

/-- The statements that the loops over the locations find are those of the locations. -/
lemma locationStatementAt_eq {s : NginxConfigStatement} (hs : s ∈ site.statements)
    {place : BlockPtr} {x : LocationStatement}
    (h : locationStatementAt (s, place) = some (some x)) :
    ∃ l ∈ site.locations, s = l.statement ∧ x = ⟨l.path, l.type.name, place⟩ := by
  rcases mem_statements hs with rfl | ⟨l, hl, rfl⟩
  · rw [locationStatementAt_port] at h
    cases h
  · rw [locationStatementAt_location] at h
    cases h
    exact ⟨l, hl, rfl, rfl⟩

/-! ### Printing -/

/-- Statements that can be written one by one can be written one after the other. -/
lemma exists_configOf (h : ∀ s ∈ ss, ∃ ts, StatementOf ts s ∧ HasText ts) :
    ∃ ts, ConfigOf ts ss ∧ HasText ts := by
  induction ss with
  | nil => exact ⟨[], .nil, by simp [HasText]⟩
  | cons s ss ih =>
    obtain ⟨hs, hss⟩ := List.forall_mem_cons.mp h
    obtain ⟨ts, hts, htext⟩ := hs
    obtain ⟨us, hus, htexts⟩ := ih hss
    refine ⟨ts ++ us, .cons hts hus, ?_⟩
    intro t ht
    rcases List.mem_append.mp ht with ht | ht
    · exact htext t ht
    · exact htexts t ht

lemma hasText_map {vs : List Str} (h : ∀ v ∈ vs, TokenText v) :
    HasText (vs.map (Token.mk .normal)) := by
  intro t ht _
  obtain ⟨v, hv, rfl⟩ := List.mem_map.mp ht
  exact h v hv

lemma exists_simple {vs : List Str} (hvs : vs ≠ []) (h : ∀ v ∈ vs, TokenText v) :
    ∃ ts, StatementOf ts (.mk vs none) ∧ HasText ts := by
  refine ⟨_, .simple hvs (show Token.type ⟨.statementEnd, [';']⟩ = .statementEnd from rfl), ?_⟩
  intro t ht
  rcases List.mem_append.mp ht with ht | ht
  · exact hasText_map h t ht
  · rw [List.mem_singleton.mp ht]
    intro htype
    cases htype

lemma exists_block {vs : List Str} (hvs : vs ≠ []) (h : ∀ v ∈ vs, TokenText v)
    (hss : ∃ ts, ConfigOf ts ss ∧ HasText ts) :
    ∃ ts, StatementOf ts (.mk vs (some (.mk ss))) ∧ HasText ts := by
  obtain ⟨us, hus, htexts⟩ := hss
  refine ⟨_, .block hvs (show Token.type ⟨.startBlock, ['{']⟩ = .startBlock from rfl)
    (show Token.type ⟨.endBlock, ['}']⟩ = .endBlock from rfl) hus, ?_⟩
  intro t ht
  simp only [List.mem_append, List.mem_cons, List.not_mem_nil, or_false] at ht
  rcases ht with ht | rfl | ht | rfl
  · exact hasText_map h t ht
  · intro htype
    cases htype
  · exact htexts t ht
  · intro htype
    cases htype

lemma tokenText_of_all {v : Str} (hv : v ≠ []) (h : v.all beginsBare = true) : TokenText v := by
  obtain ⟨c, v, rfl⟩ := List.exists_cons_of_ne_nil hv
  obtain ⟨hc, hrest⟩ := List.forall_mem_cons.mp (List.all_eq_true.mp h)
  refine .bare hc fun x hx => ?_
  have hx := hrest x hx
  simp only [beginsBare, Bool.not_eq_true', Bool.or_eq_false_iff] at hx
  exact hx.1.1.1.1

lemma tokenText_digits (n : Nat) : TokenText (Nat.toDigits 10 n) := by
  refine tokenText_of_all Nat.toDigits_ne_nil (List.all_eq_true.mpr fun c hc => ?_)
  have hdigit : c.isDigit = true := isDigit_of_mem_toDigits hc
  have hne : ∀ d : Char, d.isDigit = false → c ≠ d := by
    rintro d hd rfl
    rw [hdigit] at hd
    cases hd
  simp [beginsBare, endsToken, hne]

lemma tokenText_name (type : HandlerType) : TokenText type.name :=
  tokenText_of_all (by cases type <;> decide) (by cases type <;> decide)

lemma exists_statementOf {s : NginxConfigStatement} (hs : s ∈ site.statements) :
    ∃ ts, StatementOf ts s ∧ HasText ts := by
  rcases mem_statements hs with rfl | ⟨l, hl, rfl⟩
  · refine exists_simple (by simp) ?_
    rintro v (_ | ⟨_, _ | ⟨_, ⟨⟩⟩⟩)
    · exact tokenText_of_all (by decide) (by decide)
    · exact tokenText_digits site.port
  · have htokens : ∀ v ∈ ["location".toList, l.path, l.type.name], TokenText v := by
      rintro v (_ | ⟨_, _ | ⟨_, _ | ⟨_, ⟨⟩⟩⟩⟩)
      · exact tokenText_of_all (by decide) (by decide)
      · exact site.path_text l hl
      · exact tokenText_name l.type
    rw [SiteLocation.statement, SiteLocation.block]
    cases hroot : l.root with
    | none => exact exists_block (by simp) htokens (exists_configOf (by simp))
    | some root =>
      refine exists_block (by simp) htokens (exists_configOf ?_)
      intro s hs
      rw [List.mem_singleton.mp hs]
      refine exists_simple (by simp) ?_
      rintro v (_ | ⟨_, _ | ⟨_, ⟨⟩⟩⟩)
      · exact tokenText_of_all (by decide) (by decide)
      · exact site.root_text l hl root hroot

lemma parse_toStr_of_perm (h : ss.Perm site.statements) (depth : CInt) :
    parse ((NginxConfig.mk ss).toStr depth) = .returned true (.mk ss) := by
  obtain ⟨ts, hts, htexts⟩ := exists_configOf fun s hs => exists_statementOf (h.mem_iff.mp hs)
  exact parse_toStr_of_configOf hts htexts depth

/-- A site is spelled by what is printed of its statements, in any order and at any depth. -/
lemma spelledBy_toStr (h : ss.Perm site.statements) (depth : CInt) :
    site.SpelledBy ((NginxConfig.mk ss).toStr depth) :=
  ⟨ss, parse_toStr_of_perm h depth, h⟩

/-! ### The port -/

lemma allStatementsOf_eq_flatMap (ss : List NginxConfigStatement) :
    allStatementsOf ss = ss.flatMap NginxConfigStatement.allStatements := by
  induction ss with
  | nil => rfl
  | cons s ss ih => rw [allStatementsOf, ih, List.flatMap_cons]

lemma portToken_location (l : SiteLocation) :
    ∀ s ∈ l.statement.allStatements, s.portToken = none := by
  rw [SiteLocation.statement, SiteLocation.block]
  cases l.root with
  | none =>
    rintro s (_ | ⟨_, ⟨⟩⟩)
    rfl
  | some root =>
    rintro s (_ | ⟨_, _ | ⟨_, ⟨⟩⟩⟩)
    · rfl
    · change (if "root".toList = "port".toList then some root else none) = none
      exact if_neg (by decide)

lemma ports_eq (h : ss.Perm site.statements) :
    (NginxConfig.mk ss).ports = [Nat.toDigits 10 site.port] := by
  have hperm : (NginxConfig.mk ss).ports.Perm (NginxConfig.mk site.statements).ports := by
    simp only [NginxConfig.ports, NginxConfig.allStatements, allStatementsOf_eq_flatMap]
    exact (h.flatMap_right _).filterMap _
  refine List.perm_singleton.mp (hperm.trans (.of_eq ?_))
  have hlocations : (site.locations.map SiteLocation.statement).flatMap (fun s =>
      s.allStatements.filterMap NginxConfigStatement.portToken) = [] := by
    simp only [List.flatMap_eq_nil_iff, List.forall_mem_map, List.filterMap_eq_nil_iff]
    exact fun l _ => portToken_location l
  rw [NginxConfig.ports, NginxConfig.allStatements, allStatementsOf_eq_flatMap,
    List.filterMap_flatMap, statements, List.flatMap_cons, hlocations]
  rfl

/-! ### The locations -/

lemma createHandlerFactory_name (type : HandlerType) :
    createHandlerFactory type.name = some type := by
  cases type <;> rfl

lemma mem_of_mapM_option {A B : Type*} {f : A → Option B} {l : List A} {r : List B}
    (h : l.mapM f = some r) : ∀ a ∈ l, ∃ b ∈ r, f a = some b := by
  induction l generalizing r with
  | nil => simp
  | cons a l ih =>
    simp only [List.mapM_cons, Option.pure_def, Option.bind_eq_bind, Option.bind_eq_some_iff,
      Option.some.injEq] at h
    obtain ⟨b, hb, bs, hbs, rfl⟩ := h
    intro x hx
    rcases List.mem_cons.mp hx with rfl | hx
    · exact ⟨b, List.mem_cons_self, hb⟩
    · obtain ⟨y, hy, hxy⟩ := ih hbs x hx
      exact ⟨y, List.mem_cons_of_mem _ hy, hxy⟩

section

variable {ls : List LocationStatement} {l : SiteLocation}

/-- The location statements of the configuration stand for locations of the site. -/
lemma location_of_mem (hss : ss.Perm site.statements)
    (h : (NginxConfig.mk ss).locationStatements = some ls) {x : LocationStatement} (hx : x ∈ ls) :
    ∃ l ∈ site.locations, x.key = l.key ∧ x.factory = some ⟨l.type, x.block⟩ ∧
      (NginxConfig.mk ss).blockAt x.block = some l.block := by
  obtain ⟨s, hs, hfound⟩ := statement_of_mem h hx
  obtain ⟨l, hl, rfl, heq⟩ :=
    locationStatementAt_eq (hss.mem_iff.mp (List.mem_of_getElem? hs)) hfound
  refine ⟨l, hl, ?_, ?_, ?_⟩
  · rw [heq]
    rfl
  · rw [heq, LocationStatement.factory, createHandlerFactory_name]
    rfl
  · rw [NginxConfig.blockAt, hs]
    rfl

/-- There is a location statement for every location of the site. -/
lemma exists_mem_of_location (hss : ss.Perm site.statements)
    (h : (NginxConfig.mk ss).locationStatements = some ls) (hl : l ∈ site.locations) :
    ∃ x ∈ ls, x.key = l.key ∧ x.factory = some ⟨l.type, x.block⟩ := by
  have hmem : l.statement ∈ ss :=
    hss.mem_iff.mpr (List.mem_cons_of_mem _ (List.mem_map_of_mem hl))
  obtain ⟨place, hplace⟩ := List.mem_iff_getElem?.mp hmem
  obtain ⟨found, hfound, rfl⟩ := Option.map_eq_some_iff.mp h
  obtain ⟨o, ho, heq⟩ :=
    mem_of_mapM_option hfound (l.statement, place) (List.mem_zipIdx_iff_getElem?.mpr hplace)
  rw [locationStatementAt_location, Option.some.injEq] at heq
  refine ⟨⟨l.path, l.type.name, place⟩, List.mem_filterMap.mpr ⟨o, ho, heq.symm⟩, rfl, ?_⟩
  · rw [LocationStatement.factory, createHandlerFactory_name]
    rfl

end

end Site

end SocialNetworkApp
