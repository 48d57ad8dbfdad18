/-! # Styles

A style sets some of a cell's colours and may make it bold; what it leaves open stays as it is. The
palette names the colours of the viewer by what they show.
-/

namespace MatrixLang.Viewer

inductive Color where
  | unset
  | black
  | white
  | rgb (red green blue : Nat)
  deriving DecidableEq, Repr

structure Style where
  foreground? : Option Color
  background? : Option Color
  bold : Bool
  deriving DecidableEq, Repr

namespace Style

def transparent : Style := ⟨none, none, false⟩

def ofForeground (c : Color) : Style := ⟨some c, none, false⟩

def withBackground (s : Style) (c : Color) : Style := { s with background? := some c }

def inBold (s : Style) : Style := { s with bold := true }

end Style

namespace Palette

def text : Color := .rgb 205 214 244
def bracket : Color := .rgb 137 180 250
def accent : Color := .rgb 250 179 135
def comment : Color := .rgb 108 112 134
def success : Color := .rgb 166 227 161
def failure : Color := .rgb 243 139 168
def keyword : Color := .rgb 137 180 250
def string : Color := .rgb 250 179 135
def number : Color := .rgb 250 179 135
def focusedBorder : Color := .rgb 249 226 175
def plainBorder : Color := .rgb 108 112 134
def currentLine : Color := .rgb 50 50 70
def builtin : Color := .rgb 249 226 175
def typeName : Color := .rgb 148 226 213

end Palette

end MatrixLang.Viewer
