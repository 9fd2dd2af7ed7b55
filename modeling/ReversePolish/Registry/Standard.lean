import ReversePolish.Registry.Basic

/-!
# The standard operations

The eight operations that a calculator understands from the start. A binary
operation is given the value entered last first, and computes the earlier value
before the later one: `6 2 ÷` is 3. Angles are in degrees.
-/

namespace ReversePolish

/-- The circle constant, rounded to a double. -/
def pi : Float := Float.ofBits 0x400921FB54442D18

/-- The length of one degree on the unit circle. -/
def radiansPerDegree : Float := pi / 180

namespace Operation

def multiply : Operation := ⟨"×", .binary fun top second => second * top⟩

def divide : Operation := ⟨"÷", .binary fun top second => second / top⟩

def add : Operation := ⟨"+", .binary fun top second => second + top⟩

def subtract : Operation := ⟨"−", .binary fun top second => second - top⟩

def squareRoot : Operation := ⟨"√", .unary Float.sqrt⟩

def sine : Operation := ⟨"sin", .unary fun degrees => Float.sin (degrees * radiansPerDegree)⟩

def cosine : Operation := ⟨"cos", .unary fun degrees => Float.cos (degrees * radiansPerDegree)⟩

def circleConstant : Operation := ⟨"π", .constant pi⟩

/-- The standard operations, in the order in which they are registered. -/
def standard : List Operation :=
  [multiply, divide, add, subtract, squareRoot, sine, cosine, circleConstant]

end Operation

namespace Registry

/-- Offers the standard operations; symbols that are taken stay as they are. -/
def loadStandard (registry : Registry) : Registry := Operation.standard.foldl offer registry

/-- The registry of the standard operations. -/
def standard : Registry := empty.loadStandard

end Registry

end ReversePolish
