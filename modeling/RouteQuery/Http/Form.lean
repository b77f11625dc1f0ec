import RouteQuery.Text.Utf8

/-! Forms: pairs such as `name=value` joined by `&`. -/
namespace RouteQuery.Http.Form
open Text

def splitAt (b : UInt8) : Bytes → List Bytes
  | [] => [[]]
  | x :: xs =>
    if x = b then [] :: splitAt b xs
    else match splitAt b xs with
      | [] => [[x]]
      | piece :: pieces => (x :: piece) :: pieces

/-- A plus stands for a space, a percent sign with two digits for a byte. -/
def decodePart (bs : Bytes) : String :=
  String.ofList (ofUtf8Lossy (percentDecode (bs.map fun b => if b = 43 then 32 else b)))

/-- A pair is cut at its first `=`; without one its value is empty. -/
def decodePair (bs : Bytes) : String × String :=
  (decodePart (bs.takeWhile (· ≠ 61)), decodePart ((bs.dropWhile (· ≠ 61)).drop 1))

/-- The pairs of a form in order. Nothing between two `&` is no pair. -/
def decode (bs : Bytes) : List (String × String) :=
  ((splitAt 38 bs).filter (!·.isEmpty)).map decodePair

end RouteQuery.Http.Form
