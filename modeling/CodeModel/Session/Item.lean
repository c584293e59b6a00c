import CodeModel.Marks
import CodeModel.Render.Display
import CodeModel.Render.Inspect

namespace CodeModel

inductive Item where
  | nothing
  | text (t : Text)
  | entity (k : Kind) (x : Handle k.Carrier)
  | list (k : Kind) (l : EntityList k.Carrier)
  | definition (d : Handle Definition)

namespace Item

def mark : Item → Marks → Marks
  | entity k x => k.mark x
  | list k l => markItems k l
  | definition d => Definition.mark d
  | _ => id

def display? : Item → Option String
  | entity k x => k.display? x.val
  | definition d => some d.val.display
  | _ => none

def inspect? (frozen : Nat → Bool) : Item → Option String
  | text t => some t.inspect
  | entity k x => k.inspect? frozen x
  | list k l => (l.items.mapM (k.inspect? frozen)).map bracketed
  | definition d => some (d.val.inspect frozen d.id)
  | nothing => none

def same? : Item → Item → Option Bool
  | nothing, nothing => some true
  | text t, text u => some (t.id == u.id)
  | entity j x, entity k y => if j = k then some (x.id == y.id) else none
  | list j l, list k m => if h : k = j then some (l.sameStorage (h ▸ m)) else none
  | _, _ => none

end Item

end CodeModel
