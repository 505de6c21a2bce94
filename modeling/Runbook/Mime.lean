import Runbook.Entries
import Runbook.Text.Case

/-! Media types and file name endings. -/
namespace Runbook.Mime

/-- The media type of an ending. -/
def byExtension : List (String × String) :=
  [("md", "text/markdown"), ("txt", "text/plain"), ("html", "text/html"), ("htm", "text/html"),
   ("css", "text/css"), ("js", "application/javascript"), ("json", "application/json"),
   ("xml", "application/xml"), ("csv", "text/csv"), ("svg", "image/svg+xml"),
   ("png", "image/png"), ("jpg", "image/jpeg"), ("jpeg", "image/jpeg"), ("gif", "image/gif"),
   ("webp", "image/webp"), ("bmp", "image/bmp"), ("tiff", "image/tiff"),
   ("pdf", "application/pdf"), ("zip", "application/zip"), ("gz", "application/gzip"),
   ("tar", "application/x-tar"), ("mp3", "audio/mpeg"), ("wav", "audio/wav"),
   ("ogg", "audio/ogg"), ("mp4", "video/mp4"), ("webm", "video/webm")]

/-- The endings of media types for which the first ending with that type would not do. -/
def preferred : List (String × String) :=
  [("image/jpeg", "jpg"), ("image/jpg", "jpg"), ("text/plain", "txt"), ("text/javascript", "js"),
   ("application/octet-stream", "bin"), ("application/x-zip-compressed", "zip")]

/-- The endings whose files hold bytes rather than text. -/
def binaryExtensions : List String :=
  ["png", "jpg", "jpeg", "gif", "webp", "bmp", "ico", "tiff", "pdf", "zip", "gz", "tar", "mp3",
   "wav", "ogg", "mp4", "webm", "mov"]

/-- The media type where nothing is known. -/
def unknown : String := "application/octet-stream"

/-- The media type for an ending, in any case. -/
def ofExtension (extension : String) : String :=
  (Entries.get? (Text.lowered extension) byExtension).getD unknown

/-- The ending for a media type, or the empty one. -/
def extension (mime : String) : String :=
  match Entries.get? mime preferred with
  | some e => e
  | none =>
    match byExtension.find? (·.2 == mime) with
    | some (e, _) => e
    | none => ""

def isBinaryExtension (extension : String) : Bool :=
  binaryExtensions.contains (Text.lowered extension)

/-- Whether a media type is of bytes; what is not known is text. -/
def isBinary (mime : String) : Bool :=
  if mime.startsWith "text/" then false
  else if ["application/json", "application/xml", "application/javascript"].contains mime then false
  else if mime.endsWith "+xml" || mime.endsWith "+json" then false
  else if mime.startsWith "image/" || mime.startsWith "audio/" || mime.startsWith "video/" then true
  else ["application/pdf", "application/zip", "application/x-zip-compressed",
    "application/octet-stream", "application/gzip", "application/x-tar"].contains mime

end Runbook.Mime
