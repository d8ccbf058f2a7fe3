import SocialNetworkApp.Config.Lexemes
import SocialNetworkApp.Core.Returns

/-!
# The port number

`get_port_num` counts the port statements of a tree in one traversal and looks for the number in
another one, which passes over the blocks last. With a single port statement both find it; but
whatever the token behind `port` is, `atoi` makes a number of it.
-/

namespace SocialNetworkApp

open SocialNetworkApp.Core

/-- What the C++ gives no meaning to: an access to a token that is not there, or a number that does
not fit an `int`. -/
inductive Undefined where
  | tokenIndex
  | overflow
deriving DecidableEq

/-- A number in an `int`. -/
def intOf (n : Int) : Except Undefined CInt :=
  match CInt.ofInt? n with
  | some m => .ok m
  | none => .error .overflow

/-- `atoi(s)`. -/
def atoi (s : Str) : Except Undefined CInt := intOf (leadingInt s)

/-- What `get_port_num` returns where it finds no port number. -/
def noPort : CInt := ⟨-1, by decide, by decide⟩

/-- `tokens_[i]`. -/
def NginxConfigStatement.tokenAt (s : NginxConfigStatement) (i : Nat) : Except Undefined Str :=
  match s.tokens[i]? with
  | some token => .ok token
  | none => .error .tokenIndex

/-- `tokens_.size() == 2 && tokens_[0] == "port"`. -/
def NginxConfigStatement.isPort (s : NginxConfigStatement) : Except Undefined Bool := do
  if s.tokens.length = 2 then
    let first ← s.tokenAt 0
    return first = "port".toList
  else return false

mutual
/-- `NginxConfig::numPorts`. -/
def NginxConfig.numPorts : NginxConfig → Except Undefined CInt
  | .mk statements => numPortsOf 0 statements

/-- The loop of `numPorts`. -/
def numPortsOf (count : CInt) : List NginxConfigStatement → Except Undefined CInt
  | [] => .ok count
  | statement :: statements => do
    let count ← statement.countPorts count
    numPortsOf count statements

/-- One round of the loop. -/
def NginxConfigStatement.countPorts (count : CInt) : NginxConfigStatement → Except Undefined CInt
  | .mk tokens none => do
    if ← NginxConfigStatement.isPort (.mk tokens none) then intOf (count.val + 1) else return count
  | .mk _ (some block) => do
    let c ← block.numPorts
    intOf (count.val + c.val)
end

/-- The first loop of `get_port_num`, over the statements without a block: what it returns, if it
returns. -/
def firstPort : List NginxConfigStatement → Except Undefined (Option CInt)
  | [] => .ok none
  | statement :: statements =>
    match statement.childBlock with
    | some _ => firstPort statements
    | none => do
      if ← statement.isPort then
        let portno ← atoi (← statement.tokenAt 1)
        return some (if 0 ≤ portno.val ∧ portno.val ≤ 65535 then portno else noPort)
      else firstPort statements

mutual
/-- `NginxConfig::get_port_num`. -/
def NginxConfig.getPortNum : NginxConfig → Except Undefined CInt
  | .mk statements => do
    let count ← (NginxConfig.mk statements).numPorts
    if 1 < count.val then return noPort
    match ← firstPort statements with
    | some portno => return portno
    | none => blockPort statements

/-- The second loop, over the statements with a block. -/
def blockPort : List NginxConfigStatement → Except Undefined CInt
  | [] => .ok noPort
  | statement :: statements => do
    let portno ← statement.childPort
    if portno ≠ noPort then return portno
    blockPort statements

/-- `statement->child_block_.get()->get_port_num()`; a statement without a block is passed over. -/
def NginxConfigStatement.childPort : NginxConfigStatement → Except Undefined CInt
  | .mk _ none => .ok noPort
  | .mk _ (some block) => block.getPortNum
end

/-! ### Port statements -/

/-- The second token of a port statement: two tokens, `port` the first of them, and no block. -/
def NginxConfigStatement.portToken : NginxConfigStatement → Option Str
  | .mk [first, second] none => if first = "port".toList then some second else none
  | _ => none

/-- The second tokens of all port statements of a tree. -/
def NginxConfig.ports (c : NginxConfig) : List Str :=
  c.allStatements.filterMap NginxConfigStatement.portToken

/-- The token is a decimal numeral with a value up to 65535. -/
def PortNumeral (v : Str) (p : CInt) : Prop :=
  v ≠ [] ∧ (∀ c ∈ v, c.isDigit = true) ∧ (Nat.ofDigitChars 10 v 0 : Int) = p.val ∧ p.val ≤ 65535

/-- A port number is returned exactly for a tree with a single port statement and a numeral in it,
and -1 otherwise. -/
structure ExactPort (c : NginxConfig) : Prop where
  port : ∀ p : CInt, 0 ≤ p.val →
    (c.getPortNum = .ok p ↔ ∃ v, c.ports = [v] ∧ PortNumeral v p)
  otherwise : (¬ ∃ v p, c.ports = [v] ∧ PortNumeral v p) → c.getPortNum = .ok noPort

namespace NginxConfigStatement

variable {s : NginxConfigStatement}

lemma portToken_of_block (tokens : List Str) (block : NginxConfig) :
    (mk tokens (some block)).portToken = none := by
  rw [portToken]
  simp

lemma childBlock_of_portToken {v : Str} (h : s.portToken = some v) : s.childBlock = none := by
  rw [portToken.eq_def] at h
  split at h
  · rfl
  · cases h

lemma isPort_eq (h : s.childBlock = none) : s.isPort = .ok s.portToken.isSome := by
  obtain ⟨tokens, childBlock⟩ := s
  obtain rfl : childBlock = none := h
  match tokens with
  | [] | [_] | _ :: _ :: _ :: _ => rfl
  | [first, second] =>
    change Except.ok (decide (first = "port".toList)) = _
    rw [portToken]
    split_ifs with hfirst
    · rw [decide_eq_true hfirst]
      rfl
    · rw [decide_eq_false hfirst]
      rfl

lemma tokenAt_of_portToken {v : Str} (h : s.portToken = some v) : s.tokenAt 1 = .ok v := by
  rw [portToken.eq_def] at h
  split at h
  · split_ifs at h
    rw [Option.some.inj h]
    rfl
  · cases h

end NginxConfigStatement

/-! ### Counting -/

/-- Numbers are added up as far as they fit. -/
lemma intOf_bind {m n : Int} (hm : 0 ≤ m) (hn : 0 ≤ n) {f : CInt → Except Undefined CInt}
    (hf : ∀ c : CInt, 0 ≤ c.val → f c = intOf (c.val + n)) : (intOf m >>= f) = intOf (m + n) := by
  by_cases hfit : m ≤ 2147483647
  · have hm' : intOf m = .ok ⟨m, by omega, hfit⟩ := by
      rw [intOf, CInt.ofInt?, dif_pos ⟨by omega, hfit⟩]
    rw [hm', ok_bind, hf _ hm]
  · have herror : ∀ k : Int, m ≤ k → intOf k = .error .overflow := by
      intro k hk
      rw [intOf, CInt.ofInt?, dif_neg (by omega)]
    rw [herror m le_rfl, herror (m + n) (by omega)]
    rfl

mutual
lemma NginxConfig.numPorts_eq (c : NginxConfig) : c.numPorts = intOf c.ports.length := by
  match c with
  | .mk ss =>
    rw [NginxConfig.numPorts, numPortsOf_eq le_rfl, CInt.val_zero, zero_add]
    rfl

lemma numPortsOf_eq {count : CInt} (hcount : 0 ≤ count.val) (ss : List NginxConfigStatement) :
    numPortsOf count ss = intOf (count.val +
      ((allStatementsOf ss).filterMap NginxConfigStatement.portToken).length) := by
  match ss with
  | [] => simp [numPortsOf, intOf, allStatementsOf]
  | s :: ss =>
    rw [numPortsOf, s.countPorts_eq hcount, allStatementsOf, List.filterMap_append,
      List.length_append, Nat.cast_add, ← add_assoc]
    exact intOf_bind (by omega) (by omega) fun c hc => numPortsOf_eq hc ss

lemma NginxConfigStatement.countPorts_eq {count : CInt} (hcount : 0 ≤ count.val)
    (s : NginxConfigStatement) : s.countPorts count =
      intOf (count.val + (s.allStatements.filterMap NginxConfigStatement.portToken).length) := by
  match s with
  | .mk tokens none =>
    rw [NginxConfigStatement.countPorts, NginxConfigStatement.isPort_eq rfl, ok_bind,
      NginxConfigStatement.allStatements]
    cases hport : (NginxConfigStatement.mk tokens none).portToken with
    | none =>
      simp only [hport, List.filterMap_cons, List.filterMap_nil, List.length_nil, Nat.cast_zero,
        add_zero, intOf, CInt.ofInt?_val]
      rfl
    | some v => simp [hport]
  | .mk tokens (some block) =>
    rw [NginxConfigStatement.countPorts, block.numPorts_eq,
      NginxConfigStatement.allStatements,
      List.filterMap_cons_none (NginxConfigStatement.portToken_of_block tokens block), add_comm]
    exact intOf_bind (by omega) hcount fun c hc => by rw [add_comm]
end

/-! ### Looking for the number -/

/-- What is made of the token behind `port`. -/
def portOf (v : Str) : Except Undefined CInt := do
  let portno ← atoi v
  return if 0 ≤ portno.val ∧ portno.val ≤ 65535 then portno else noPort

/-- What is returned for a tree with these port statements. -/
def portOfPorts : List Str → Except Undefined CInt
  | [v] => portOf v
  | _ => .ok noPort

lemma firstPort_of_nil {ss : List NginxConfigStatement}
    (h : ss.filterMap NginxConfigStatement.portToken = []) : firstPort ss = .ok none := by
  induction ss with
  | nil => rfl
  | cons s ss ih =>
    obtain ⟨hs, hss⟩ := List.forall_mem_cons.mp (List.filterMap_eq_nil_iff.mp h)
    have hrest := ih (List.filterMap_eq_nil_iff.mpr hss)
    rw [firstPort]
    split
    · exact hrest
    · rename_i hblock
      rw [NginxConfigStatement.isPort_eq hblock, hs]
      exact hrest

lemma firstPort_of_cons {ss : List NginxConfigStatement} {v : Str} {vs : List Str}
    (h : ss.filterMap NginxConfigStatement.portToken = v :: vs) :
    firstPort ss = (portOf v).map some := by
  induction ss with
  | nil => cases h
  | cons s ss ih =>
    rw [firstPort]
    cases hs : s.portToken with
    | none =>
      rw [List.filterMap_cons_none hs] at h
      split
      · exact ih h
      · rename_i hblock
        rw [NginxConfigStatement.isPort_eq hblock, hs]
        exact ih h
    | some w =>
      rw [List.filterMap_cons_some hs] at h
      obtain ⟨rfl, -⟩ := List.cons.inj h
      have hblock := NginxConfigStatement.childBlock_of_portToken hs
      simp only [hblock, NginxConfigStatement.isPort_eq hblock, hs,
        NginxConfigStatement.tokenAt_of_portToken hs, ok_bind, Option.isSome_some, if_true, portOf]
      cases atoi w <;> rfl

/-- A list that holds `v` and nothing else. -/
lemma eq_singleton_of_mem {vs : List Str} {v : Str} (hmem : v ∈ vs) (hlength : vs.length ≤ 1) :
    vs = [v] := by
  match vs, hmem, hlength with
  | [w], hmem, _ => rw [List.mem_singleton.mp hmem]

mutual
/-- With a single port statement at most, both traversals agree. -/
lemma NginxConfig.getPortNum_eq (c : NginxConfig) (h : c.ports.length ≤ 1) :
    c.getPortNum = portOfPorts c.ports := by
  match c with
  | .mk ss =>
    have hcount : (NginxConfig.mk ss).numPorts =
        .ok ⟨(NginxConfig.mk ss).ports.length, by omega, by omega⟩ := by
      rw [NginxConfig.numPorts_eq, intOf, CInt.ofInt?, dif_pos ⟨by omega, by omega⟩]
    rw [NginxConfig.getPortNum, hcount, ok_bind, if_neg (by simpa using h)]
    cases htop : ss.filterMap NginxConfigStatement.portToken with
    | nil =>
      rw [firstPort_of_nil htop]
      exact blockPort_eq ss htop h
    | cons v vs =>
      obtain ⟨s, hs, hv⟩ := List.mem_filterMap.mp (htop ▸ List.mem_cons_self (a := v))
      have hports : (NginxConfig.mk ss).ports = [v] := eq_singleton_of_mem
        (List.mem_filterMap.mpr ⟨s, mem_allStatementsOf hs, hv⟩) h
      rw [firstPort_of_cons htop, hports, portOfPorts]
      cases portOf v <;> rfl

lemma blockPort_eq (ss : List NginxConfigStatement)
    (htop : ss.filterMap NginxConfigStatement.portToken = [])
    (h : ((allStatementsOf ss).filterMap NginxConfigStatement.portToken).length ≤ 1) :
    blockPort ss =
      portOfPorts ((allStatementsOf ss).filterMap NginxConfigStatement.portToken) := by
  match ss with
  | [] => rfl
  | s :: ss =>
    obtain ⟨hs, hss⟩ := List.forall_mem_cons.mp (List.filterMap_eq_nil_iff.mp htop)
    rw [allStatementsOf, List.filterMap_append] at h ⊢
    rw [List.length_append] at h
    have hchild := s.childPort_eq hs (by omega)
    have hrest := blockPort_eq ss (List.filterMap_eq_nil_iff.mpr hss) (by omega)
    rw [blockPort, hchild]
    generalize s.allStatements.filterMap NginxConfigStatement.portToken = vs at h ⊢
    generalize (allStatementsOf ss).filterMap NginxConfigStatement.portToken = ws at h hrest ⊢
    match vs, ws, h with
    | [], _, _ => exact hrest
    | [v], [], _ =>
      -- behind the only port statement nothing is found
      rw [hrest]
      change (portOf v >>= _) = portOf v
      cases hport : portOf v with
      | error e => rfl
      | ok p =>
        rw [ok_bind]
        split_ifs with hp
        · rfl
        · rw [not_not.mp hp]
          rfl
    | _ :: _ :: _, _, h =>
      simp only [List.length_cons] at h
      omega
    | [_], _ :: _, h =>
      simp only [List.length_cons] at h
      omega

lemma NginxConfigStatement.childPort_eq (s : NginxConfigStatement) (htop : s.portToken = none)
    (h : (s.allStatements.filterMap NginxConfigStatement.portToken).length ≤ 1) :
    s.childPort = portOfPorts (s.allStatements.filterMap NginxConfigStatement.portToken) := by
  match s with
  | .mk tokens none =>
    rw [NginxConfigStatement.allStatements, List.filterMap_cons_none htop]
    rfl
  | .mk tokens (some block) =>
    rw [NginxConfigStatement.allStatements, List.filterMap_cons_none htop] at h ⊢
    exact block.getPortNum_eq h
end

lemma NginxConfig.getPortNum_of_two_le {c : NginxConfig} (h : 2 ≤ c.ports.length)
    (hfit : c.ports.length ≤ 2147483647) : c.getPortNum = .ok noPort := by
  obtain ⟨ss⟩ := c
  rw [NginxConfig.getPortNum, NginxConfig.numPorts_eq, intOf, CInt.ofInt?,
    dif_pos ⟨by omega, by omega⟩]
  exact if_pos (show (1 : Int) < (NginxConfig.mk ss).ports.length by omega)

/-- More port statements than an `int` can count. -/
lemma NginxConfig.getPortNum_of_overflow {c : NginxConfig} (h : 2147483647 < c.ports.length) :
    c.getPortNum = .error .overflow := by
  obtain ⟨ss⟩ := c
  rw [NginxConfig.getPortNum, NginxConfig.numPorts_eq, intOf, CInt.ofInt?, dif_neg (by omega)]
  rfl

lemma PortNumeral.portOf_eq {v : Str} {p : CInt} (h : PortNumeral v p) : portOf v = .ok p := by
  obtain ⟨hne, hdigits, hvalue, hmax⟩ := h
  have hatoi : atoi v = .ok p := by
    rw [atoi, leadingInt_digits hne hdigits, hvalue, intOf, CInt.ofInt?_val]
  have hmin : 0 ≤ p.val := by omega
  rw [portOf, hatoi, ok_bind, if_pos ⟨hmin, hmax⟩]
  rfl

/-- The number at the head of the token fits an `int`, and is none of a port. -/
def OutOfRange (v : Str) : Prop :=
  (-2147483648 ≤ leadingInt v ∧ leadingInt v < 0) ∨
    (65535 < leadingInt v ∧ leadingInt v ≤ 2147483647)

lemma portOf_eq_noPort_iff {v : Str} : portOf v = .ok noPort ↔ OutOfRange v := by
  by_cases hfit : -2147483648 ≤ leadingInt v ∧ leadingInt v ≤ 2147483647
  · rw [portOf, atoi, intOf, CInt.ofInt?, dif_pos hfit, ok_bind]
    change Except.ok (if 0 ≤ leadingInt v ∧ leadingInt v ≤ 65535 then _ else noPort) = _ ↔ _
    split_ifs with hrange
    · refine iff_of_false (fun h => ?_) (fun h => ?_)
      · have hvalue : leadingInt v = -1 := congrArg CInt.val (Except.ok.inj h)
        omega
      · rw [OutOfRange] at h
        omega
    · rw [OutOfRange]
      exact iff_of_true rfl (by omega)
  · rw [portOf, atoi, intOf, CInt.ofInt?, dif_neg hfit]
    refine iff_of_false (fun h => ?_) (fun h => ?_)
    · cases h
    · rw [OutOfRange] at h
      omega

/-! ### When the port is the one that is written -/

namespace ExactPort

variable {c : NginxConfig}

lemma ports_length_lt (h : ExactPort c) : c.ports.length < 2147483648 := by
  by_contra hmany
  have hnone := h.otherwise (by
    rintro ⟨v, p, hv, -⟩
    rw [hv, List.length_singleton] at hmany
    omega)
  rw [NginxConfig.getPortNum_of_overflow (by omega)] at hnone
  cases hnone

lemma numeral_or_outOfRange (h : ExactPort c) {v : Str} (hv : c.ports = [v]) :
    (∃ p, PortNumeral v p) ∨ OutOfRange v := by
  by_contra hneither
  obtain ⟨hnumeral, hrange⟩ := not_or.mp hneither
  have hnone := h.otherwise (by
    rintro ⟨w, p, hw, hp⟩
    rw [hv] at hw
    obtain rfl := List.singleton_inj.mp hw
    exact hnumeral ⟨p, hp⟩)
  rw [c.getPortNum_eq (by rw [hv]; rfl), hv] at hnone
  exact hrange (portOf_eq_noPort_iff.mp hnone)

lemma of_numeral {v : Str} {p : CInt} (hv : c.ports = [v]) (hp : PortNumeral v p) : ExactPort c := by
  have hresult : c.getPortNum = .ok p := by
    rw [c.getPortNum_eq (by rw [hv]; rfl), hv]
    exact hp.portOf_eq
  refine ⟨fun p' _ => ?_, fun h => absurd ⟨v, p, hv, hp⟩ h⟩
  rw [hresult]
  constructor
  · intro h
    obtain rfl := Except.ok.inj h
    exact ⟨v, hv, hp⟩
  · rintro ⟨w, hw, hp'⟩
    obtain rfl := List.singleton_inj.mp (hv.symm.trans hw)
    exact hp.portOf_eq.symm.trans hp'.portOf_eq

lemma of_noPort (hresult : c.getPortNum = .ok noPort)
    (hport : ¬ ∃ v p, c.ports = [v] ∧ PortNumeral v p) : ExactPort c := by
  refine ⟨fun p hp => ?_, fun _ => hresult⟩
  rw [hresult]
  refine iff_of_false (fun h => ?_) (fun ⟨v, hv⟩ => hport ⟨v, p, hv⟩)
  obtain rfl := Except.ok.inj h
  exact absurd hp (by decide)

end ExactPort

lemma NginxConfig.getPortNum_of_not_numeral {c : NginxConfig} (hfit : c.ports.length < 2147483648)
    (hsingle : ∀ v, c.ports = [v] → OutOfRange v) : c.getPortNum = .ok noPort := by
  match hports : c.ports with
  | [] => rw [c.getPortNum_eq (by simp [hports]), hports, portOfPorts]; simp
  | [v] =>
    rw [c.getPortNum_eq (by simp [hports]), hports]
    exact portOf_eq_noPort_iff.mpr (hsingle v hports)
  | _ :: _ :: _ => exact c.getPortNum_of_two_le (by simp [hports]) (by omega)

/-- The port is extracted exactly, if an `int` can count the port statements and the token of a
single one is either a numeral for a port or begins with a number out of range. -/
theorem getPortNum_exact_iff (c : NginxConfig) :
    ExactPort c ↔ c.ports.length < 2147483648 ∧
      ∀ v, c.ports = [v] → (∃ p, PortNumeral v p) ∨ OutOfRange v := by
  constructor
  · intro h
    exact ⟨h.ports_length_lt, fun v hv => h.numeral_or_outOfRange hv⟩
  · rintro ⟨hfit, hsingle⟩
    by_cases hport : ∃ v p, c.ports = [v] ∧ PortNumeral v p
    · obtain ⟨v, p, hv, hp⟩ := hport
      exact .of_numeral hv hp
    · have hrange (v : Str) (hv : c.ports = [v]) : OutOfRange v :=
        (hsingle v hv).resolve_left fun ⟨p, hp⟩ => hport ⟨v, p, hv, hp⟩
      exact .of_noPort (NginxConfig.getPortNum_of_not_numeral hfit hrange) hport

/-- `port abc;` -/
def portAbc : NginxConfig := .mk [.mk ["port".toList, "abc".toList] none]

/-- For `port abc;` the port is zero. -/
theorem getPortNum_not_numeral :
    parse "port abc;".toList = .returned true portAbc ∧ portAbc.getPortNum = .ok 0 ∧
      ¬ ExactPort portAbc := by
  have hports : portAbc.ports = ["abc".toList] := rfl
  have hresult : portAbc.getPortNum = .ok 0 := by
    rw [portAbc.getPortNum_eq (by rw [hports]; rfl), hports]
    rfl
  refine ⟨?_, hresult, fun h => ?_⟩
  · have hport : TokenText ['p', 'o', 'r', 't'] := .bare rfl (by simp [endsToken])
    have habc : TokenText ['a', 'b', 'c'] := .bare rfl (by simp [endsToken])
    have hreads : Reads "port abc;".toList
        [⟨.normal, "port".toList⟩, ⟨.normal, "abc".toList⟩, ⟨.statementEnd, [';']⟩] [] :=
      .text hport rfl (.blank rfl (.text habc rfl (.delimiter .statementEnd .done)))
    have hconfig := (StatementOf.simple (show ["port".toList, "abc".toList] ≠ [] by simp)
      (show Token.type ⟨.statementEnd, [';']⟩ = .statementEnd from rfl)).toConfigOf
    exact hreads.parse_eq (Or.inl rfl) hconfig
  · obtain ⟨v, hv, -, hdigits, -⟩ := (h.port 0 le_rfl).mp hresult
    obtain rfl := List.singleton_inj.mp (hports.symm.trans hv)
    exact absurd (hdigits 'a' (by simp)) (by decide)

end SocialNetworkApp
