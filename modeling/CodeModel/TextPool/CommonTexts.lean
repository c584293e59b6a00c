namespace CodeModel.TextPool

def commonKeywords : List String :=
  ["value", "this", "base", "object", "string", "int", "bool", "void", "dynamic"]

def commonNamespaces : List String :=
  ["System", "System.Collections", "System.Collections.Generic", "System.Linq", "System.Text",
    "System.IO", "System.Threading", "System.Threading.Tasks", "System.Runtime.CompilerServices"]

def commonTypes : List String :=
  ["Object", "String", "Boolean", "Char", "Byte", "SByte", "Int16", "UInt16", "Int32", "UInt32",
    "Int64", "UInt64", "Single", "Double", "Decimal", "Void", "Type", "Array", "Enum", "ValueType",
    "Delegate", "Exception", "Attribute", "IDisposable", "IEnumerable", "IEnumerator", "List",
    "Dictionary", "Task", "Func", "Action", "EventArgs", "EventHandler", "ObsoleteAttribute",
    "ParamArrayAttribute", "ExtensionAttribute"]

def commonMembers : List String :=
  ["args", "sender", "e", "index", "count", "item", "key", "name", "obj", "other", "source",
    "predicate", "selector", "comparer", "action", "callback", "message", "format", "provider",
    "culture", "cancellationToken", "Equals", "GetHashCode", "ToString", "GetType", "Dispose",
    "Invoke", "Add", "Remove", "Contains", "Clear", "Count", "Length", "Item", "Current",
    "MoveNext", "Reset", "GetEnumerator", ".ctor", ".cctor"]

def commonTexts : List String := commonKeywords ++ commonNamespaces ++ commonTypes ++ commonMembers

end CodeModel.TextPool
