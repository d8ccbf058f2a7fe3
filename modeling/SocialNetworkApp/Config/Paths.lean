import SocialNetworkApp.Config.Ports
import SocialNetworkApp.Config.Routes

/-!
# Tokens by their index

The functions that read a configuration take tokens by their index. Behind a test of their number,
or where the first one is taken, the token is there; `getPaths` takes the second token of every
statement in the block of a static handler, too.
-/

namespace SocialNetworkApp

open SocialNetworkApp.Core

/-- The values of `path::endpointType`. -/
inductive EndpointType where
  | static
  | echo
  | invalid
  | other

/-- `path`. -/
structure Path where
  endpointType : EndpointType := .echo
  endpoint : Str := []
  root : Str := []
  pathMap : Table Str Str := ∅

/-- The path `getPaths` makes of a statement in the block of a static handler; `none` when a token
is accessed that is not there. -/
def staticPath (endpoint : Str) (child : NginxConfigStatement) : Option Path := do
  let value ← child.tokens[1]?
  let name ← child.tokens[0]?
  return { endpointType := .static, endpoint, root := value, pathMap := AList.insert name value ∅ }

/-- The paths of a location statement. For another number of tokens, without a block or with
another handler an error is logged. -/
def NginxConfigStatement.locationPaths : NginxConfigStatement → Option (List Path)
  | .mk [_, location, handler] (some block) =>
    if handler = "EchoHandler".toList then
      some [{ endpointType := .echo, endpoint := removeTrailingSlashes location }]
    else if handler = "StaticHandler".toList then
      block.statements.mapM (staticPath (removeTrailingSlashes location))
    else some []
  | _ => some []

/-- One round of the loop of `getPaths`. -/
def NginxConfigStatement.paths (s : NginxConfigStatement) : Option (List Path) := do
  let first ← s.tokens[0]?
  if first = "location".toList then s.locationPaths else return []

/-- `NginxConfig::getPaths`, with an empty `pd`. -/
def NginxConfig.getPaths (c : NginxConfig) : Option (List Path) :=
  (c.statements.mapM NginxConfigStatement.paths).map List.flatten

/-- No function accesses a token that is not there. -/
structure InRange (c : NginxConfig) : Prop where
  paths : c.getPaths ≠ none
  arguments : c.getArguments ≠ none
  factories : c.getFactories ≠ none
  port : c.getPortNum ≠ .error .tokenIndex

/-- The statements in the blocks of static handlers have two tokens. -/
def StaticPairs (c : NginxConfig) : Prop :=
  ∀ location block,
    NginxConfigStatement.mk ["location".toList, location, "StaticHandler".toList] (some block) ∈
      c.statements → ∀ child ∈ block.statements, 2 ≤ child.tokens.length

/-! ### Location statements -/

lemma exists_locationStatements_of_parse {input : Str} {c : NginxConfig}
    (h : parse input = .returned true c) : ∃ ls, c.locationStatements = some ls := by
  obtain ⟨ts, hts, -⟩ := configOf_of_parse h
  have hstatements : (c.statements.zipIdx.mapM locationStatementAt).isSome := by
    rw [mapM_option_isSome_iff]
    rintro ⟨s, place⟩ hmem
    rw [isSome_locationStatementAt]
    exact hts.tokens_ne_nil s (List.mem_of_getElem? (List.mem_zipIdx_iff_getElem?.mp hmem))
  obtain ⟨found, hfound⟩ := Option.isSome_iff_exists.mp hstatements
  refine ⟨found.filterMap id, ?_⟩
  rw [NginxConfig.locationStatements, hfound]
  rfl

/-! ### Paths -/

lemma isSome_staticPath {endpoint : Str} {child : NginxConfigStatement} :
    (staticPath endpoint child).isSome ↔ 2 ≤ child.tokens.length := by
  obtain ⟨tokens, childBlock⟩ := child
  match tokens with
  | [] | [_] => simp [staticPath]
  | _ :: _ :: _ => simp [staticPath]

lemma NginxConfigStatement.isSome_locationPaths (s : NginxConfigStatement) :
    s.locationPaths.isSome ↔ ∀ first location block,
      s = .mk [first, location, "StaticHandler".toList] (some block) →
        ∀ child ∈ block.statements, 2 ≤ child.tokens.length := by
  match s with
  | .mk [] _ | .mk [_] _ | .mk [_, _] _ | .mk [_, _, _] none | .mk (_ :: _ :: _ :: _ :: _) _ =>
    exact iff_of_true rfl (by rintro first location block ⟨⟩)
  | .mk [first, location, handler] (some block) =>
    rw [locationPaths]
    split_ifs with hecho hstatic
    · subst hecho
      refine iff_of_true rfl ?_
      intro first' location' block' heq
      simp at heq
    · subst hstatic
      rw [mapM_option_isSome_iff]
      simp only [isSome_staticPath]
      constructor
      · rintro hall first' location' block' ⟨⟩
        exact hall
      · exact fun hall => hall first location block rfl
    · refine iff_of_true rfl ?_
      rintro first' location' block' ⟨⟩
      exact absurd rfl hstatic

lemma NginxConfigStatement.isSome_paths {s : NginxConfigStatement} (hs : s.tokens ≠ []) :
    s.paths.isSome ↔ ∀ location block,
      s = .mk ["location".toList, location, "StaticHandler".toList] (some block) →
        ∀ child ∈ block.statements, 2 ≤ child.tokens.length := by
  obtain ⟨tokens, childBlock⟩ := s
  obtain ⟨first, rest, rfl⟩ := List.exists_cons_of_ne_nil hs
  have hpaths : paths (.mk (first :: rest) childBlock) = if first = "location".toList then
      locationPaths (.mk (first :: rest) childBlock) else some [] := rfl
  rw [hpaths]
  split_ifs with hfirst
  · subst hfirst
    rw [isSome_locationPaths]
    constructor
    · exact fun hall location block heq => hall _ location block heq
    · rintro hall first location block ⟨⟩
      exact hall location block rfl
  · refine iff_of_true rfl ?_
    rintro location block ⟨⟩
    exact absurd rfl hfirst

/-! ### Ports -/

lemma portOf_ne_tokenIndex (v : Str) : portOf v ≠ .error .tokenIndex := by
  rw [portOf, atoi, intOf]
  cases CInt.ofInt? (leadingInt v) with
  | none => simp
  | some n => simp

/-- The tokens of a port statement are there. -/
lemma NginxConfig.getPortNum_ne_tokenIndex (c : NginxConfig) :
    c.getPortNum ≠ .error .tokenIndex := by
  by_cases hmany : 2147483647 < c.ports.length
  · rw [getPortNum_of_overflow hmany]
    simp
  match hports : c.ports with
  | [] =>
    rw [c.getPortNum_eq (by simp [hports]), hports]
    simp [portOfPorts]
  | [v] =>
    rw [c.getPortNum_eq (by simp [hports]), hports]
    exact portOf_ne_tokenIndex v
  | _ :: _ :: _ =>
    rw [c.getPortNum_of_two_le (by simp [hports]) (by omega)]
    simp

/-- For a file that is accepted all indices are in range, exactly if in the blocks of static
handlers no statement has a single token. -/
theorem inRange_iff {input : Str} {c : NginxConfig} (h : parse input = .returned true c) :
    InRange c ↔ StaticPairs c := by
  obtain ⟨ts, hts, -⟩ := configOf_of_parse h
  obtain ⟨ls, hls⟩ := exists_locationStatements_of_parse h
  have hpaths : c.getPaths ≠ none ↔ StaticPairs c := by
    rw [← Option.isSome_iff_ne_none, NginxConfig.getPaths, Option.isSome_map,
      mapM_option_isSome_iff]
    constructor
    · intro hall location block hmem
      exact (NginxConfigStatement.isSome_paths (by simp)).mp (hall _ hmem) location block rfl
    · intro hpairs s hs
      rw [NginxConfigStatement.isSome_paths (hts.tokens_ne_nil s hs)]
      rintro location block rfl
      exact hpairs location block hs
  constructor
  · intro hrange
    exact hpaths.mp hrange.paths
  · intro hpairs
    refine ⟨hpaths.mpr hpairs, ?_, ?_, c.getPortNum_ne_tokenIndex⟩
    · simp [NginxConfig.getArguments, hls]
    · simp [NginxConfig.getFactories, hls]

/-- `location /a StaticHandler{x;}` -/
def staticSingle : NginxConfig :=
  .mk [.mk ["location".toList, "/a".toList, "StaticHandler".toList]
    (some (.mk [.mk ["x".toList] none]))]

lemma parse_staticSingle :
    parse "location /a StaticHandler{x;}".toList = .returned true staticSingle := by
  have hlocation : TokenText ['l', 'o', 'c', 'a', 't', 'i', 'o', 'n'] :=
    .bare rfl (by simp [endsToken])
  have hpath : TokenText ['/', 'a'] := .bare rfl (by simp [endsToken])
  have hhandler : TokenText ['S', 't', 'a', 't', 'i', 'c', 'H', 'a', 'n', 'd', 'l', 'e', 'r'] :=
    .bare rfl (by simp [endsToken])
  have hx : TokenText ['x'] := .bare rfl (by simp)
  have hreads : Reads "location /a StaticHandler{x;}".toList
      [⟨.normal, "location".toList⟩, ⟨.normal, "/a".toList⟩, ⟨.normal, "StaticHandler".toList⟩,
        ⟨.startBlock, ['{']⟩, ⟨.normal, "x".toList⟩, ⟨.statementEnd, [';']⟩, ⟨.endBlock, ['}']⟩] [] :=
    .text hlocation rfl (.blank rfl (.text hpath rfl (.blank rfl (.text hhandler rfl
      (.delimiter .startBlock (.text hx rfl (.delimiter .statementEnd
        (.delimiter .endBlock .done))))))))
  have hblock := (StatementOf.simple (show ["x".toList] ≠ [] by simp)
    (show Token.type ⟨.statementEnd, [';']⟩ = .statementEnd from rfl)).toConfigOf
  have hstatement := StatementOf.block
    (show ["location".toList, "/a".toList, "StaticHandler".toList] ≠ [] by simp)
    (show Token.type ⟨.startBlock, ['{']⟩ = .startBlock from rfl)
    (show Token.type ⟨.endBlock, ['}']⟩ = .endBlock from rfl) hblock
  exact hreads.parse_eq (Or.inl rfl) hstatement.toConfigOf

theorem inRange_iff_staticSingle : InRange staticSingle ↔ StaticPairs staticSingle :=
  inRange_iff parse_staticSingle

/-- The second token of `x;` is accessed. -/
theorem getPaths_not_inRange :
    parse "location /a StaticHandler{x;}".toList = .returned true staticSingle ∧
      staticSingle.getPaths = none ∧ ¬ InRange staticSingle := by
  have hnone : staticSingle.getPaths = none := rfl
  exact ⟨parse_staticSingle, hnone, fun h => h.paths hnone⟩

end SocialNetworkApp
