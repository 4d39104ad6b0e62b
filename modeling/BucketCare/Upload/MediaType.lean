import BucketCare.Text.Blank

/-!
# Media types

The media type of a file, by the extension of its name.

## Main definitions

* `MediaType.extension?` — the extension of a path
* `MediaType.ofPath` — the media type of a path
-/

namespace BucketCare.MediaType

/-- The media type of a file that is not known. -/
def unknown : String := "application/octet-stream"

/-- Extensions of texts. -/
def texts : List (String × String) :=
  [("txt", "text/plain"), ("text", "text/plain"), ("log", "text/plain"), ("conf", "text/plain"),
    ("ini", "text/plain"), ("c", "text/plain"), ("h", "text/plain"), ("cpp", "text/plain"),
    ("csv", "text/csv"), ("tsv", "text/tab-separated-values"), ("html", "text/html"),
    ("htm", "text/html"), ("css", "text/css"), ("xml", "text/xml"), ("md", "text/markdown"),
    ("markdown", "text/markdown"), ("yaml", "text/x-yaml"), ("yml", "text/x-yaml"),
    ("toml", "text/x-toml"), ("rs", "text/x-rust"), ("js", "text/javascript"),
    ("mjs", "text/javascript"), ("ics", "text/calendar"), ("vcf", "text/x-vcard"),
    ("rtf", "application/rtf"), ("sql", "application/x-sql"), ("sh", "application/x-sh")]

/-- Extensions of data and archives. -/
def data : List (String × String) :=
  [("json", "application/json"), ("pdf", "application/pdf"), ("zip", "application/zip"),
    ("gz", "application/gzip"), ("tar", "application/x-tar"), ("tgz", "application/gzip"),
    ("bz2", "application/x-bzip2"), ("xz", "application/x-xz"),
    ("7z", "application/x-7z-compressed"), ("rar", "application/x-rar-compressed"),
    ("jar", "application/java-archive"), ("wasm", "application/wasm"), ("bin", unknown),
    ("exe", unknown), ("dat", unknown), ("iso", unknown), ("dll", "application/x-msdownload"),
    ("doc", "application/msword"), ("xls", "application/vnd.ms-excel"),
    ("ppt", "application/vnd.ms-powerpoint"), ("ps", "application/postscript"),
    ("docx", "application/vnd.openxmlformats-officedocument.wordprocessingml.document"),
    ("xlsx", "application/vnd.openxmlformats-officedocument.spreadsheetml.sheet"),
    ("pptx", "application/vnd.openxmlformats-officedocument.presentationml.presentation"),
    ("odt", "application/vnd.oasis.opendocument.text"), ("epub", "application/epub+zip"),
    ("atom", "application/atom+xml"), ("rss", "application/rss+xml"),
    ("xhtml", "application/xhtml+xml")]

/-- Extensions of pictures, sounds and films. -/
def media : List (String × String) :=
  [("png", "image/png"), ("jpg", "image/jpeg"), ("jpeg", "image/jpeg"), ("jpe", "image/jpeg"),
    ("gif", "image/gif"), ("svg", "image/svg+xml"), ("webp", "image/webp"), ("bmp", "image/bmp"),
    ("tif", "image/tiff"), ("tiff", "image/tiff"), ("ico", "image/x-icon"),
    ("avif", "image/avif"), ("mp3", "audio/mpeg"), ("wav", "audio/wav"), ("ogg", "audio/ogg"),
    ("flac", "audio/flac"), ("aac", "audio/aac"), ("m4a", "audio/m4a"), ("mp4", "video/mp4"),
    ("webm", "video/webm"), ("avi", "video/x-msvideo"), ("mov", "video/quicktime"),
    ("mpg", "video/mpeg"), ("mpeg", "video/mpeg"), ("mkv", "video/x-matroska"),
    ("ttf", "font/ttf"), ("otf", "font/otf"), ("woff", "font/woff"), ("woff2", "font/woff2")]

/-- The extension of a path: what follows the last dot of its last name, unless the name begins with
that dot. -/
def extension? (path : String) : Option String :=
  let name := ((Text.splitAt '/' path.toList).filter (!·.isEmpty)).getLast?.getD []
  let tail := (name.reverse.takeWhile (· != '.')).reverse
  let before := name.length - tail.length
  if before ≤ 1 then none else some (String.ofList tail)

/-- The media type of a path. -/
def ofPath (path : String) : String :=
  ((extension? path).bind fun e =>
    (texts ++ data ++ media).lookup (Text.lowerAscii e)).getD unknown

end BucketCare.MediaType
