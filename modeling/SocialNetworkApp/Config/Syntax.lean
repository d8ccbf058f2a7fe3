import SocialNetworkApp.Core.Number

/-!
# Configuration trees

A configuration is a list of statements; a statement is a list of tokens with, possibly, a block of
statements behind it.
-/

namespace SocialNetworkApp

open SocialNetworkApp.Core

mutual
/-- `NginxConfigStatement`. -/
inductive NginxConfigStatement where
  | mk (tokens : List Str) (childBlock : Option NginxConfig)

/-- `NginxConfig`. -/
inductive NginxConfig where
  | mk (statements : List NginxConfigStatement)
end

namespace NginxConfigStatement

def tokens : NginxConfigStatement → List Str
  | mk tokens _ => tokens

def childBlock : NginxConfigStatement → Option NginxConfig
  | mk _ childBlock => childBlock

@[simp] lemma tokens_mk (ts : List Str) (c : Option NginxConfig) : (mk ts c).tokens = ts := rfl

@[simp] lemma childBlock_mk (ts : List Str) (c : Option NginxConfig) :
    (mk ts c).childBlock = c := rfl

end NginxConfigStatement

def NginxConfig.statements : NginxConfig → List NginxConfigStatement
  | .mk statements => statements

@[simp] lemma NginxConfig.statements_mk (ss : List NginxConfigStatement) :
    (NginxConfig.mk ss).statements = ss := rfl

@[simp] lemma NginxConfig.mk_statements (c : NginxConfig) : NginxConfig.mk c.statements = c := by
  cases c; rfl

/-! ### The statements of a tree -/

mutual
/-- The statement and those of the blocks below it, in the order of the text. -/
def NginxConfigStatement.allStatements : NginxConfigStatement → List NginxConfigStatement
  | .mk tokens none => [.mk tokens none]
  | .mk tokens (some block) => .mk tokens (some block) :: block.allStatements

def NginxConfig.allStatements : NginxConfig → List NginxConfigStatement
  | .mk statements => allStatementsOf statements

def allStatementsOf : List NginxConfigStatement → List NginxConfigStatement
  | [] => []
  | statement :: statements => statement.allStatements ++ allStatementsOf statements
end

lemma NginxConfig.allStatements_eq (c : NginxConfig) :
    c.allStatements = allStatementsOf c.statements := by
  cases c
  rfl

lemma NginxConfigStatement.mem_allStatements (s : NginxConfigStatement) : s ∈ s.allStatements := by
  obtain ⟨tokens, childBlock⟩ := s
  cases childBlock <;> exact List.mem_cons_self

/-- The statements of a list are among those of its trees. -/
lemma mem_allStatementsOf {s : NginxConfigStatement} {ss : List NginxConfigStatement} (h : s ∈ ss) :
    s ∈ allStatementsOf ss := by
  induction ss with
  | nil => cases h
  | cons s' ss ih =>
    rw [allStatementsOf, List.mem_append]
    rcases List.mem_cons.mp h with rfl | h
    · exact Or.inl s.mem_allStatements
    · exact Or.inr (ih h)

/-! ### Printing -/

/-- Two blanks for each level. -/
def indentation (depth : CInt) : Str :=
  (List.replicate depth.val.toNat "  ".toList).flatten

mutual
/-- `NginxConfigStatement::ToString`. -/
def NginxConfigStatement.toStr (depth : CInt) : NginxConfigStatement → Str
  | .mk tokens none => indentation depth ++ [' '].intercalate tokens ++ [';'] ++ ['\n']
  | .mk tokens (some block) =>
    indentation depth ++ [' '].intercalate tokens ++ [' ', '{', '\n'] ++ block.toStr depth.succ ++
      indentation depth ++ ['}'] ++ ['\n']

/-- `NginxConfig::ToString`. -/
def NginxConfig.toStr (depth : CInt) : NginxConfig → Str
  | .mk statements => statementsToStr depth statements

def statementsToStr (depth : CInt) : List NginxConfigStatement → Str
  | [] => []
  | statement :: statements => statement.toStr depth ++ statementsToStr depth statements
end

end SocialNetworkApp
