namespace CodeModel

inductive Accessibility where
  | unstated
  | privateAccess
  | publicAccess
  | protectedAccess
  | internalAccess
  | protectedOrInternal
  | protectedAndInternal
deriving DecidableEq

namespace Accessibility

def all : List Accessibility :=
  [unstated, privateAccess, publicAccess, protectedAccess, internalAccess, protectedOrInternal,
    protectedAndInternal]

def name : Accessibility → String
  | unstated => "None"
  | privateAccess => "Private"
  | publicAccess => "Public"
  | protectedAccess => "Protected"
  | internalAccess => "Internal"
  | protectedOrInternal => "ProtectedOrInternal"
  | protectedAndInternal => "ProtectedAndInternal"

def keyword? : Accessibility → Option String
  | unstated => none
  | privateAccess => some "private"
  | publicAccess => some "public"
  | protectedAccess => some "protected"
  | internalAccess => some "internal"
  | protectedOrInternal => some "protected internal"
  | protectedAndInternal => some "private protected"

end Accessibility

end CodeModel
