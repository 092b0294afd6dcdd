import WasmSourceMap.Leb128
import WasmSourceMap.Text.Utf8

/-!
# The section that names the source map

A custom section whose payload is the address of the source map, with its length in front.
-/

namespace WasmSourceMap.UrlSection

/-- The usual name of the section. -/
def defaultName : String := "sourceMappingURL"

/-- A text behind its length. -/
def counted (bytes : Bytes) : Bytes := Leb128.encode bytes.length ++ bytes

/-- The section of a name and an address. -/
def encode (name url : String) : Bytes :=
  0 :: counted (counted (Text.Utf8.encode name) ++ counted (Text.Utf8.encode url))

end WasmSourceMap.UrlSection
