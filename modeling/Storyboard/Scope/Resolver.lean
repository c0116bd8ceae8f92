import Storyboard.Scope.Binding
import Storyboard.Options

/-!
# Resolving names

What a name means for extraction, given the scopes around it and the names of the framework.
-/

namespace Storyboard

/-- What a name means for extraction. -/
inductive NameClass where
  /-- Declared around the place. -/
  | bound
  /-- A marker of the runtime module, or the binding of the functions. -/
  | frameworkImport
  /-- A global name that expressions may use. -/
  | global
  /-- The style loader, not declared anywhere. -/
  | styleLoader
  /-- Not declared and not known. -/
  | free
deriving DecidableEq, Repr

/-- Whether a name of this class can stay in the code as it is. -/
def NameClass.isStatic : NameClass → Bool
  | .frameworkImport => false
  | .global => false
  | _ => true

/-- The two markers of the runtime module. -/
inductive Marker where
  | reactive
  | recursive
deriving DecidableEq, Repr

/-- The name of a marker under the given options. -/
def Marker.name (options : Options) : Marker → String
  | .reactive => options.reactiveMarker
  | .recursive => options.recursiveMarker

/-- The scopes around a place together with the names of the framework. -/
structure Resolver where
  /-- The names of the framework. -/
  options : Options
  /-- The scopes around the place, innermost first. -/
  scopes : ScopeStack := []

namespace Resolver

/-- Go into a scope. -/
def enter (resolver : Resolver) (scope : Scope) : Resolver :=
  { resolver with scopes := scope :: resolver.scopes }

/-- Leave the innermost scope. -/
def leave (resolver : Resolver) : Resolver := { resolver with scopes := resolver.scopes.drop 1 }

/-- The meaning of a name in the scopes. -/
def lookup (resolver : Resolver) (name : String) : Option Binding := resolver.scopes.lookup name

/-- The class of a name. -/
def classify (resolver : Resolver) (name : String) : NameClass :=
  match resolver.lookup name with
  | some binding =>
    if binding.isNamedImportFrom resolver.options.runtimeModule ||
        (binding.isDefaultImport && name == resolver.options.resourceBinding) then .frameworkImport
    else .bound
  | none =>
    if resolver.options.isBuiltinGlobal name then .global
    else if name == resolver.options.styleLoader then .styleLoader
    else .free

/-- The marker that a name would be if it were imported as such. -/
def markerNamed? (options : Options) (name : String) : Option Marker :=
  if name == options.reactiveMarker then some .reactive
  else if name == options.recursiveMarker then some .recursive
  else none

/-- The marker that a called name is: it has to be the runtime module's export of that name. -/
def marker? (resolver : Resolver) (name : String) : Option Marker :=
  match markerNamed? resolver.options name, resolver.lookup name with
  | some marker, some binding =>
    if binding.isNamedImport resolver.options.runtimeModule name then some marker else none
  | _, _ => none

/-- Whether a called name is the style loader, either undeclared or imported from the element
module. -/
def isStyleLoader (resolver : Resolver) (name : String) : Bool :=
  name == resolver.options.styleLoader &&
    match resolver.lookup name with
    | none => true
    | some binding => binding.isNamedImport resolver.options.jsxModule name

end Resolver

end Storyboard
