import ObjectSync.Entity.Property

/-!
# The object part

What every object of the world carries.
-/

namespace ObjectSync.PartTable

def object : PartTable where
  name := "object"
  fields := [
    .scalar "guid" .u64,
    .scalar "type" .u32,
    .scalar "entry" .u32,
    .scalar "scale_x" .f32,
    .padding .u32 1]
  properties := [
    .ofField "guid" .guid,
    .renamed "type_mask" "type" .typeMask,
    .ofField "entry" .u32,
    .ofField "scale_x" .f32]

end ObjectSync.PartTable
