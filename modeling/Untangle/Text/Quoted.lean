import Untangle.Text.CodePoints

namespace Untangle

-- Which characters of a quoted text are escaped beyond the fixed ones. Grapheme extenders are
-- escaped either wherever they stand, or only where they would attach to the opening quote.
structure QuoteStyle where
  apostrophe : Bool
  extendersEverywhere : Bool

namespace QuoteStyle

def literal : QuoteStyle := ⟨true,false⟩
def message : QuoteStyle := ⟨false,true⟩

def codePoint (c : Char) : List Char :=
  ['\\','u','\x7b'] ++ Nat.toDigits 16 c.toNat ++ ['\x7d']

def escapeChar (style : QuoteStyle) (leading : Bool) (c : Char) : List Char :=
  if c = '\x00' then ['\\','0']
  else if c = '\t' then ['\\','t']
  else if c = '\r' then ['\\','r']
  else if c = '\n' then ['\\','n']
  else if c = '\\' then ['\\','\\']
  else if c = '\x22' then ['\\','\x22']
  else if c = '\x27' then (if style.apostrophe then ['\\','\x27'] else ['\x27'])
  else if (leading || style.extendersEverywhere) && CodePoints.extendsGrapheme c then codePoint c
  else if CodePoints.unprintable c || CodePoints.ignorable c then codePoint c
  else [c]

def escape (style : QuoteStyle) : List Char → List Char
  | [] => []
  | c :: rest => style.escapeChar true c ++ rest.flatMap (style.escapeChar false)

def quote (style : QuoteStyle) (text : String) : String :=
  String.ofList (['\x22'] ++ style.escape text.toList ++ ['\x22'])

end QuoteStyle
end Untangle
