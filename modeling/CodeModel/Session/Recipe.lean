import CodeModel.Entity.Change

/-! Recipes. A recipe makes everything anew, except where it names a register. -/

namespace CodeModel

inductive TextRecipe where
  | register (name : String)
  | empty
  | fresh (s : String)

structure RegionRecipe where
  file : Option TextRecipe
  start : Location
  stop : Location

inductive TypeRecipe where
  | register (name : String)
  | shared (t : SharedType)
  | named (ns name : String) (args : List TypeRecipe)
  | array (element : TypeRecipe) (rank : UInt32)
  | byRef (element : TypeRecipe)

inductive LiteralRecipe where
  | string (t : TextRecipe)
  | plain (l : Literal) (noText : l.isPlain = true := by rfl)

inductive ConstantRecipe where
  | register (name : String)
  | null
  | make (type : TypeRecipe) (literal : LiteralRecipe)

inductive AttributeRecipe where
  | register (name : String)
  | make (type : TypeRecipe) (positional : List ConstantRecipe) (named : List (String × ConstantRecipe))
      (region : RegionRecipe)

inductive ParameterRecipe where
  | register (name : String)
  | make (name : Option TextRecipe) (type : TypeRecipe) (attributes : List AttributeRecipe)
      (default : Option ConstantRecipe) (region : RegionRecipe) (modes : List (PassingMode × Bool))

inductive MethodRecipe where
  | register (name : String)
  | make (name : TextRecipe) (returns : TypeRecipe) (parameters : List ParameterRecipe)
      (attributes : List AttributeRecipe) (typeParameters : List String)
      (accessibility : Accessibility) (modifiers : MethodModifiers) (region : RegionRecipe)

structure DefinitionRecipe where
  ns : String
  name : String
  kind : TypeKind
  accessibility : Accessibility
  bases : List TypeRecipe
  methods : List MethodRecipe
  attributes : List AttributeRecipe
  region : RegionRecipe

inductive ProbeRecipe where
  | register (name : String)
  | make (hash : UInt64) (tag : Int) (child : Option ProbeRecipe) (frozen : Bool)

namespace Kind

abbrev Recipe : Kind → Type
  | typeRef => TypeRecipe
  | constant => ConstantRecipe
  | attr => AttributeRecipe
  | parameter => ParameterRecipe
  | method => MethodRecipe
  | probe _ => ProbeRecipe

end Kind

inductive ItemRecipe where
  | nothing
  | register (name : String)
  | text (t : TextRecipe)
  | entity (k : Kind) (r : k.Recipe)
  | list (k : Kind) (rs : List k.Recipe)
  | definition (d : DefinitionRecipe)

inductive ChangeRecipe where
  | name (t : TextRecipe)
  | type (t : TypeRecipe)
  | literal (l : LiteralRecipe)
  | positional (c : ConstantRecipe)
  | named (name : String) (c : ConstantRecipe)
  | default (c : Option ConstantRecipe)
  | mode (m : PassingMode) (on : Bool)
  | returns (t : TypeRecipe)
  | typeParameter (s : String)
  | accessibility (a : Accessibility)
  | modifiers (m : MethodModifiers)
  | kind (k : TypeKind)
  | base (t : TypeRecipe)
  | method (m : MethodRecipe)
  | region (r : RegionRecipe)
  | attributes (edits : List (ListEdit AttributeRecipe))
  | parameters (edits : List (ListEdit ParameterRecipe))

end CodeModel
