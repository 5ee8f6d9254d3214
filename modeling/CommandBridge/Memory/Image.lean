import CommandBridge.Memory.Address

/-!
# Memory images

The contents of a whole address space: one byte for each address. A machine's memory is an image,
and so is a snapshot of it.
-/

namespace CommandBridge

/-- One byte for each address. -/
structure MemoryImage where
  /-- The bytes, by address. -/
  bytes : Vector UInt8 Address.spaceSize

namespace MemoryImage

/-- The image full of zeros. -/
def zeros : MemoryImage := ⟨Vector.replicate Address.spaceSize 0⟩

def get (m : MemoryImage) (a : Address) : UInt8 := m.bytes[a.toFin]

/-- The image with one byte changed. -/
def set (m : MemoryImage) (a : Address) (value : UInt8) : MemoryImage :=
  ⟨m.bytes.set a.toFin value⟩

@[simp] theorem get_zeros (a : Address) : zeros.get a = 0 := by
  simp [zeros, get]

theorem get_set (m : MemoryImage) (a b : Address) (value : UInt8) :
    (m.set a value).get b = if a = b then value else m.get b := by
  have h : a.toNat = b.toNat ↔ a = b := ⟨Address.ext_toNat, congrArg _⟩
  simp only [get, set, Fin.getElem_fin, Vector.getElem_set, Address.val_toFin, h]

@[simp] theorem get_set_self (m : MemoryImage) (a : Address) (value : UInt8) :
    (m.set a value).get a = value := by simp [get_set]

theorem get_set_of_ne (m : MemoryImage) {a b : Address} (h : a ≠ b) (value : UInt8) :
    (m.set a value).get b = m.get b := by simp [get_set, h]

end MemoryImage

end CommandBridge
