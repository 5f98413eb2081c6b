import Stencil.Format.Renderer
import Stencil.Template.Compiled
import Stencil.Value.Property

/-!
# What a run looks up

A running template may call others, fill its regions, read properties of values and render them. A library
answers these questions; it is all that a run depends on besides the template and its attributes.
-/

namespace Stencil

/-- The templates and handlers that a run looks up. -/
structure Library where
  compiled : String → Except Error Template.Compiled
  override? : (template region : String) → Option Template.Compiled
  adaptors : Adaptors
  renderers : Renderers
  maxDepth : Nat

end Stencil
