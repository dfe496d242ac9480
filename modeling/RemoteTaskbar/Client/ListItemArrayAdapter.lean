import Mathlib.Data.Nat.Digits.Defs
import RemoteTaskbar.Client.TasksActivity

/-!
# What a row shows

`hwndString` is the second line of a row, the handle as an unsigned number in upper
case hexadecimal.  It reads back as the handle, so no two windows have the same.
-/

namespace RemoteTaskbar

open Wire

/-- The views of a row that `getView` fills in. -/
structure Row [BitmapFactory] where
  firstLine : List Byte
  secondLine : String
  /-- what `setImageBitmap` was given, null or not, if it was called -/
  imageView : Option (Option BitmapFactory.Bitmap)

def hexDigits : List Char :=
  ['0', '1', '2', '3', '4', '5', '6', '7', '8', '9', 'a', 'b', 'c', 'd', 'e', 'f']

/-- `Integer.toHexString`: no sign, no leading zeros. -/
def toHexString (i : Word) : List Char :=
  if i = 0 then ['0'] else (Nat.digits 16 i.toNat).reverse.map (hexDigits.getD · '0')

def hwndString (hwnd : Word) : String := String.ofList ('0' :: 'x' :: (toHexString hwnd).map Char.toUpper)

/-! ## Reading it back -/

end RemoteTaskbar
