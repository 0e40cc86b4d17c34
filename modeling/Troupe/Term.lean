import Troupe.Value

/-!
Patterns, expressions and statements.

* `Pattern.declared`, `Stmt.declared`: the names that a pattern binds, and that a statement binds at
  its own level, each once and in the order in which they are first seen.
-/

namespace Troupe

mutual

/-- A pattern. -/
inductive Pattern where
  /-- Matches every value. -/
  | any
  /-- Binds a name. -/
  | ident (name : String)
  /-- Matches an equal value. -/
  | const (v : Value)
  /-- Evaluates an expression, then matches as a constant. -/
  | value (e : Expr)
  | pair (head tail : Pattern)
  /-- The current actor, matched as a constant. -/
  | self

/-- An expression. -/
inductive Expr where
  | const (v : Value)
  | ident (name : String)
  | lambda (param : Pattern) (body : Expr)
  | apply (function argument : Expr)
  | pair (head tail : Expr)
  /-- The first arm whose pattern matches the subject. -/
  | choose (subject : Expr) (arms : Arms)
  /-- One branch if the two patterns unify, else the other. -/
  | cond (left right : Pattern) (yes no : Expr)
  /-- A block of statements and the names it declares. -/
  | block (vars : List String) (body : Stmt)
  /-- The time of the current delivery. -/
  | now
  /-- The current actor. -/
  | self
  /-- A new actor with this behavior. -/
  | new (behavior : Expr)

/-- The arms of a choice. -/
inductive Arms where
  | nil
  | cons (pattern : Pattern) (body : Expr) (rest : Arms)

/-- A statement. -/
inductive Stmt where
  | empty
  /-- Both statements, side by side. -/
  | seq (first second : Stmt)
  /-- Matches a pattern with the value of an expression. -/
  | define (pattern : Pattern) (e : Expr)
  /-- Unifies two patterns. -/
  | equate (left right : Pattern)
  | send (message target : Expr)
  /-- A send after a delay. -/
  | after (delay message target : Expr)
  /-- A new actor under a name. -/
  | create (name : String) (behavior : Expr)
  /-- The behavior for the messages to come. -/
  | become (behavior : Expr)
  | throw (exception : Expr)
  /-- Evaluates an expression and runs the block it may give. -/
  | expr (e : Expr)

end

instance : Inhabited Pattern := ⟨.any⟩
instance : Inhabited Expr := ⟨.now⟩
instance : Inhabited Arms := ⟨.nil⟩
instance : Inhabited Stmt := ⟨.empty⟩

/-- Adds a name to a list of names unless it is there. -/
def collect (seen : List String) (name : String) : List String :=
  if seen.contains name then seen else seen ++ [name]

namespace Pattern

/-- A tuple pattern, nested to the right; a tuple of nothing is `NIL`. -/
def tuple : List Pattern → Pattern
  | [] => const .nil
  | [p] => p
  | p :: ps => pair p (tuple ps)

/-- Adds the names that a pattern binds to those seen before. -/
def collectFrom : Pattern → List String → List String
  | ident name, seen => collect seen name
  | pair h t, seen => t.collectFrom (h.collectFrom seen)
  | _, seen => seen

/-- The names that a pattern binds, in the order in which they are first seen. -/
def declared (p : Pattern) : List String := p.collectFrom []

end Pattern

namespace Stmt

/-- Statements side by side, nested to the right. -/
def ofList : List Stmt → Stmt
  | [] => empty
  | [s] => s
  | s :: ss => seq s (ofList ss)

/-- Adds the names that a statement binds at its own level to those seen before. -/
def collectFrom : Stmt → List String → List String
  | seq a b, seen => b.collectFrom (a.collectFrom seen)
  | define p _, seen => p.collectFrom seen
  | equate l r, seen => r.collectFrom (l.collectFrom seen)
  | create name _, seen => collect seen name
  | _, seen => seen

/-- The names that a statement binds at its own level, in the order in which they are first seen. -/
def declared (s : Stmt) : List String := s.collectFrom []

end Stmt

namespace Expr

/-- A tuple, nested to the right; a tuple of nothing is `NIL`. -/
def tuple : List Expr → Expr
  | [] => const .nil
  | [e] => e
  | e :: es => pair e (tuple es)

/-- A block that declares what its statements bind. -/
def ofStmt (s : Stmt) : Expr := block s.declared s

/-- The body if the two patterns unify, else `?`. -/
def letIn (left right : Pattern) (body : Expr) : Expr := cond left right body (const .undefined)

end Expr

end Troupe
