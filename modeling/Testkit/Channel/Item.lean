import Testkit.Bytes
import Testkit.Text.Quoted

/-! The values that channels carry. -/

namespace Testkit

inductive ItemKind where
  | int32 | nat64 | text | unit | bytes | optional
deriving DecidableEq, Repr, Inhabited

/-- How messages name the type of a channel's values. -/
def ItemKind.typeName : ItemKind → String
  | .int32 => "i32"
  | .nat64 => "u64"
  | .text => "alloc::string::String"
  | .unit => "()"
  | .bytes => "alloc::vec::Vec<u8>"
  | .optional => "core::option::Option<i64>"

inductive Item where
  | int32 (n : Int32)
  | nat64 (n : UInt64)
  | text (s : String)
  | unit
  | bytes (b : Bytes)
  | optional (n : Option Int64)
deriving DecidableEq, Repr, Inhabited

def Item.describe : Item → String
  | .int32 n => toString n.toInt
  | .nat64 n => toString n.toNat
  | .text s => quote s
  | .unit => "()"
  | .bytes b => "[" ++ ", ".intercalate (b.map fun x => toString x.toNat) ++ "]"
  | .optional none => "None"
  | .optional (some n) => "Some(" ++ toString n.toInt ++ ")"

end Testkit
