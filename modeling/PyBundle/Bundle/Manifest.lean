import PyBundle.Bundle.Emit
import PyBundle.Distribution.Pin

/-!
# The manifest

The manifest of a bundle lists the distributions that the bundle needs, one on each line.
-/

namespace PyBundle.Manifest

/-- The name of the manifest in a bundle. -/
def fileName : String := "requirements.txt"

/-- Lines, each of them ended. -/
def ofLines (lines : List String) : String := String.join (lines.map (· ++ "\n"))

/-- **The text of a manifest:** the pinned distributions in the order of their names, and then further
lines as they are given. -/
def render (pins : List Pin) (extra : List String) : String :=
  ofLines ((Pin.sorted pins).map Pin.requirement ++ extra)

/-- **Writes the manifest of a bundle** and answers with its path. -/
def write (b : Bundle) (pins : List Pin) (extra : List String) : Step BundleError Path := do
  let path := b.directory.push fileName
  Bundle.create b.directory
  Step.change (.failed .write path) fun fs => fs.settle (fs.write path (render pins extra).toUTF8)
  return path

end PyBundle.Manifest
