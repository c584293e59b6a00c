import CodeModel.Session.Dump
import CodeModel.Session.Path
import CodeModel.Session.Recipe

namespace CodeModel

inductive PoolAction where
  | intern (s : String)
  | fetch (s : String)
  | adopt (t : TextRecipe)
  | get (s : String)
  | isPooled (t : TextRecipe)
  | internCommon
  | size
  | file (r : RegionRecipe)

inductive ItemSource where
  | recipe (r : ItemRecipe)
  | register (name : String)

inductive Step where
  | bind (target : String) (value : ItemRecipe)
  | drop (registers : List String)
  | dropProvider (provider : String)
  | newPool (target : String)
  | newProvider (target : String) (options : Options)
  | set (register : String) (change : ChangeRecipe)
  | edit (register : String) (change : ChangeRecipe)
  | get (register : String) (path : List Segment) (target : String)
  | same (a b : String)
  | equals (a b : String)
  | copyUnfrozen (register target : String)
  | freeze (register : String)
  | isFrozen (register : String)
  | display (register : String)
  | inspect (register : String)
  | findMethods (register name : String)
  | walk (register : String)
  | sharedTypes (provider : String)
  | stats (provider : String)
  | intern (provider register : String)
  | internOptional (provider register : String)
  | internObject (provider : String) (source : ItemSource) (target : String)
  | prepare (provider register : String)
  | internString (provider : String) (s target : String)
  | canonical (provider register : String)
  | pool (name : String) (action : PoolAction) (target : Option String)
  | dump (provider : String)

structure ProviderView where
  stats : Stats
  number : Nat
  isEmpty : Bool

structure SharedTypeView where
  display : String
  frozen : Bool
  canonical : Bool
  count : Nat

structure PoolView where
  size : Nat
  isEmpty : Bool
  inspected : String
  text : Option String
  found : Option Bool
  adopted : Option Bool
  pooled : Option Bool
  file : Option (Bool × Bool × String)

inductive Answer where
  | ok
  | failed (e : ModelError)
  | shared
  | invalid
  | provider (v : ProviderView)
  | length (n : Nat)
  | found (b : Bool)
  | same (b : Bool)
  | equals (ab ba : Bool) (failure : Option ModelError)
  | frozen (b : Bool)
  | display (s : String)
  | inspected (s : String)
  | methods (ms : List (Nat × String))
  | walk (frozen : List Bool)
  | sharedTypes (ts : List SharedTypeView)
  | stats (s : Stats) (inspected : String) (isEmpty : Bool)
  | interned (failure : Option ModelError) (moved isSealed : Option Bool) (stats : Stats)
  | internedNothing (stats : Stats)
  | made (display : Option String) (stats : Stats)
  | notMade (e : ModelError) (stats : Stats)
  | texts (n : Nat)
  | canonical (b : Bool) (count : Nat)
  | canonicalList (b isSealed : Bool)
  | pool (v : PoolView)
  | dump (d : Dump)

def Stats.none : Stats := ⟨0, 0, 0, 0, 0⟩

def Provider.view (p : Provider) : ProviderView := ⟨p.stats, p.number, p.isEmpty⟩

end CodeModel
