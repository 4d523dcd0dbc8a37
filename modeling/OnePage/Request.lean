import OnePage.Text.Split

/-! # The request line

`GET / HTTP/1.1`: a method, a URI and a version, parted by spaces and tabs. Only the bytes before
the first carriage return or line feed count, and what follows the version does not. -/

namespace OnePage

structure RequestLine where
  method : List UInt8
  uri : List UInt8
  version : List UInt8
  deriving DecidableEq, Repr

inductive RequestError where
  | missingMethod
  | missingUri
  | missingVersion
  deriving DecidableEq, Repr

def RequestError.message : RequestError → String
  | missingMethod => "request line has no method"
  | missingUri => "request line has no URI"
  | missingVersion => "request line has no protocol version"

namespace Request

def lineFeed : UInt8 := 0x0A

def carriageReturn : UInt8 := 0x0D

/-- Whether the first line has arrived in full. -/
def hasLine (request : List UInt8) : Bool := request.contains lineFeed

/-- A byte that ends the line for the parser, even where the line has not arrived in full. -/
def endsLine (b : UInt8) : Bool := b == carriageReturn || b == lineFeed

def firstLine (request : List UInt8) : List UInt8 := request.takeWhile fun b => !endsLine b

/-- A space or a tab. -/
def isSeparator (b : UInt8) : Bool := b == 0x20 || b == 0x09

def parse (request : List UInt8) : Except RequestError RequestLine :=
  match Text.tokens isSeparator (firstLine request) with
  | [] => .error .missingMethod
  | [_] => .error .missingUri
  | [_, _] => .error .missingVersion
  | method :: uri :: version :: _ => .ok ⟨method, uri, version⟩

@[simp] theorem hasLine_nil : hasLine [] = false := rfl

theorem parse_eq_of_firstLine_eq {r s : List UInt8} (h : firstLine r = firstLine s) :
    parse r = parse s := by
  simp [parse, h]

end Request

end OnePage
