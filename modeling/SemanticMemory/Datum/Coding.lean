import SemanticMemory.Catalog.Names
import SemanticMemory.Datum.Basic
import SemanticMemory.Memory.Limits

/-!
# Values as data

How addresses, types, limits and catalog names are written as data and read from it.  What is
written can be read back.
-/

namespace SemanticMemory

def Address.toDatum (address : Address) : Datum :=
  .record [("seg", .ofWord address.segment), ("offset", .ofWord address.offset)]

def Address.ofDatum? (datum : Datum) : Option Address :=
  match datum.fields? ["seg", "offset"] with
  | some [segment, offset] => do return ⟨← segment.word?, ← offset.word?⟩
  | _ => none

@[simp]
theorem Address.ofDatum?_toDatum (address : Address) :
    Address.ofDatum? address.toDatum = some address := by
  simp [Address.ofDatum?, Address.toDatum, Datum.fields?, Datum.pick, List.lookup_cons]

def ElementType.toDatum (type : ElementType) : Datum :=
  .ofWord ⟨type.bits⟩

def ElementType.ofDatum? (datum : Datum) : Option ElementType :=
  datum.word?.map fun word => ⟨word.toBitVec⟩

@[simp]
theorem ElementType.ofDatum?_toDatum (type : ElementType) :
    ElementType.ofDatum? type.toDatum = some type := by
  simp [ElementType.ofDatum?, ElementType.toDatum]

def Limits.toDatum (limits : Limits) : Datum :=
  .record [("segment_size", .ofWord limits.segmentSize),
    ("max_segments", .ofWord limits.maxSegments)]

def Limits.ofDatum? (datum : Datum) : Option Limits :=
  match datum.fields? ["segment_size", "max_segments"] with
  | some [segmentSize, maxSegments] => do return ⟨← segmentSize.word?, ← maxSegments.word?⟩
  | _ => none

@[simp]
theorem Limits.ofDatum?_toDatum (limits : Limits) :
    Limits.ofDatum? limits.toDatum = some limits := by
  simp [Limits.ofDatum?, Limits.toDatum, Datum.fields?, Datum.pick, List.lookup_cons]

def CatalogNames.toDatum (names : CatalogNames) : Datum :=
  .record [("order_roles", .list (names.orderRoles.map .text)),
    ("order_role_relation", .text names.orderRoleRelation),
    ("operator_atomic_type", .text names.operatorAtomicType)]

/-- Reads catalog names, fit for use or not. -/
def CatalogNames.ofDatum? (datum : Datum) : Option CatalogNames :=
  match datum.fields? ["order_roles", "order_role_relation", "operator_atomic_type"] with
  | some [orderRoles, orderRoleRelation, operatorAtomicType] => do
      return ⟨← orderRoles.texts?, ← orderRoleRelation.text?, ← operatorAtomicType.text?⟩
  | _ => none

@[simp]
theorem CatalogNames.ofDatum?_toDatum (names : CatalogNames) :
    CatalogNames.ofDatum? names.toDatum = some names := by
  simp [CatalogNames.ofDatum?, CatalogNames.toDatum, Datum.fields?, Datum.pick, List.lookup_cons,
    Datum.text?]

end SemanticMemory
