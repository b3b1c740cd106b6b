import ManagedHeap.Heap.Allocation
import ManagedHeap.Text.Utf8

/-!
# Text in byte buffers
-/

namespace ManagedHeap.Text

/-- The version that is reported to hosts. -/
def versionText : String := "0.1"

def ofString (text : String) : HeapM Handle :=
  Heap.allocBlobFrom (Bytes.ofList (Utf8.encode text))

def version : HeapM Handle :=
  ofString versionText

end ManagedHeap.Text
