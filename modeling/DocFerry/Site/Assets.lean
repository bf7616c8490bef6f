import DocFerry.Site.World
/-!
# Static assets

The common asset folders of the old site are copied into one folder of images, one over the other,
and a few files from the root of the assets over them.

Main fact: without assets only the folder of images is made (`copyAssets_none`).
-/
namespace DocFerry.Site

open Files

/-- **The folder of images** of the new site. -/
def imagesFolder : Text := "images".toList

/-- **The asset folders that are copied**, in order. -/
def assetSubfolders : List Text :=
  ["img", "images", "assets", "public", "static"].map String.toList

/-- **The files at the root of the assets that are copied**, in order. -/
def assetFiles : List Text :=
  ["logo.svg", "logo.png", "favicon.ico", "logo-light.svg", "logo-dark.svg", "logo-light.png",
    "logo-dark.png"].map String.toList

/-- **One asset folder copied**, if it is there. -/
def copyAssetFolder (assets images : Path) (name : Text) : Job Unit := do
  let source := assets.child name
  if ← Job.onDisk (check (·.seekDirectory source)) then
    Job.onDisk (copyTree source images)
    Job.tell .debug "mint_migrate.sources"
      ("copied ".toList ++ source.text ++ " into ".toList ++ images.text)

/-- **One asset file copied**, if it is there. -/
def copyAssetFile (assets images : Path) (name : Text) : Job Unit := do
  let source := assets.child name
  if (← Job.onDisk (check (·.seekFile source))).isSome then
    Job.onDisk (copyFile source (images.child name))

/-- **The assets copied into the folder of images**, and that folder. -/
def copyAssets (assets : Option Path) (output : Path) : Job Path := do
  let images := output.child imagesFolder
  Job.onDisk (makeDirectories true images)
  match assets with
  | none => return images
  | some assets =>
    assetSubfolders.forM (copyAssetFolder assets images)
    assetFiles.forM (copyAssetFile assets images)
    return images

theorem copyAssets_none (output : Path) :
    copyAssets none output =
      (do Job.onDisk (makeDirectories true (output.child imagesFolder))
          return output.child imagesFolder) := rfl

end DocFerry.Site
