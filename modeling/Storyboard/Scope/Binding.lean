import Storyboard.Fields

/-!
# Bindings and scopes

What a name stands for, the names that one scope declares, and the scopes around a place in the code.
A name means what the innermost scope that declares it says.
-/

namespace Storyboard

/-- What an import takes from another module. -/
inductive ImportedName where
  | defaultExport
  | allExports
  | named (name : String)
deriving DecidableEq, Repr

/-- What a name stands for. -/
inductive Binding where
  | imported (source : String) (name : ImportedName)
  | declared
deriving DecidableEq, Repr

namespace Binding

/-- Whether a name is imported from a module under the name it has there. -/
def isNamedImport (binding : Binding) (source name : String) : Bool :=
  binding == .imported source (.named name)

/-- Whether a name is one of the named imports of a module. -/
def isNamedImportFrom (binding : Binding) (source : String) : Bool :=
  match binding with
  | .imported from_ (.named _) => from_ == source
  | _ => false

/-- Whether a name is a default import. -/
def isDefaultImport : Binding → Bool
  | .imported _ .defaultExport => true
  | _ => false

end Binding

/-- The names that one scope declares. -/
abbrev Scope := Fields Binding

/-- Declare names that stand for local values. -/
def Scope.declareAll (scope : Scope) (names : List String) : Scope :=
  names.foldl (fun acc name => Fields.set acc name .declared) scope

/-- The scopes around a place, innermost first. -/
abbrev ScopeStack := List Scope

/-- The meaning of a name: that of the innermost scope that declares it. -/
def ScopeStack.lookup (scopes : ScopeStack) (name : String) : Option Binding :=
  scopes.findSome? fun scope => Fields.get? scope name

end Storyboard
