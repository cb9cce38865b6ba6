/-! Packages of the Go standard library. -/

namespace ReactiveModel.Imports

def nameBehind (start : String) : List Char → List String
  | [] => []
  | word => [start ++ String.ofList word.reverse]

/-- The names in a text, with blanks or brackets between them, where the start that some of them
share stands once, in front of brackets around what follows it in each. Before square brackets it is
a name itself. -/
def namesFrom : List String → List Char → List Char → List String
  | starts, word, [] => nameBehind (starts.headD "") word
  | starts, word, '(' :: cs =>
    namesFrom ((starts.headD "" ++ String.ofList word.reverse) :: starts) [] cs
  | starts, word, '[' :: cs =>
    let start := starts.headD "" ++ String.ofList word.reverse
    start :: namesFrom (start :: starts) [] cs
  | starts, word, c :: cs =>
    let names := nameBehind (starts.headD "") word
    if c == ')' || c == ']' then names ++ namesFrom starts.tail [] cs
    else if c == ' ' || c == '\n' then names ++ namesFrom starts [] cs
    else namesFrom starts (c :: word) cs

def standardPaths : List String := namesFrom [] [] (String.toList
"archive/(tar zip)bufio bytes cmp compress/(bzip2 flate gzip lzw zlib)container/(heap list ring)
context crypto[/(aes cipher des dsa ecdh ecdsa ed25519 elliptic hmac md5 rand rc4 rsa sha1 sha256
sha512 subtle tls x509[/pkix])]database/sql[/driver]debug/(buildinfo dwarf elf gosym macho pe
plan9obj)embed encoding[/(ascii85 asn1 base32 base64 binary csv gob hex json pem xml)]errors expvar
flag fmt go/(ast build[/constraint]constant doc[/comment]format importer parser printer scanner
token types version)hash[/(adler32 crc32 crc64 fnv maphash)]html[/template]image[/(color[/palette]
draw gif jpeg png)]index/suffixarray io[/fs /ioutil]iter log[/slog /syslog]maps math[/(big bits
cmplx rand)]mime[/multipart /quotedprintable]net[/(http[/(cgi cookiejar fcgi httptest httptrace
httputil pprof)]mail netip rpc[/jsonrpc]smtp textproto url)]os[/(exec signal user)]path[/filepath]
plugin reflect regexp[/syntax]runtime[/(cgo coverage debug metrics pprof race trace)]slices sort
strconv strings structs sync[/atomic]syscall testing[/(fstest iotest quick slogtest)]text/(scanner
tabwriter template[/parse])time[/tzdata]unicode[/utf16 /utf8]unique unsafe")

/-- Import paths of packages that only the standard library itself may import. -/
def internalPaths : List String := namesFrom [] [] (String.toList
"crypto/internal/(alias bigmod boring[/(bbig bcache sig)]cryptotest edwards25519[/field]hpke
mlkem768 nistec[/fiat]randutil)embed/internal/embedtest go/internal/(gccgoimporter gcimporter
srcimporter typeparams)image/internal/imageutil internal/(abi asan bisect buildcfg bytealg byteorder
cfg chacha8rand concurrent copyright coverage[/(calloc cfile cformat cmerge decodecounter decodemeta
encodecounter encodemeta pods rtcov slicereader slicewriter stringtab test uleb128)]cpu dag diff
filepathlite fmtsort fuzz goarch godebug godebugs goexperiment goos goroot gover goversion itoa
lazyregexp lazytemplate msan nettrace obscuretestdata oserror pkgbits platform poll profile
profilerecord race reflectlite runtime/(atomic exithook syscall)saferio singleflight stringslite
syscall/(execenv unix)sysinfo testenv testlog testpty trace[/(event[/go122]internal/oldtrace raw
testtrace traceviewer[/format]version)]txtar types/errors unsafeheader weak xcoff zstd)log/(internal
slog/internal[/(benchmarks buffer slogtest)])net/(http/internal[/ascii /testcert]internal/(cgotest
socktest))os/exec/internal/fdtest reflect/internal/(example1 example2)runtime/internal/(math
startlinetest sys)testing/internal/testdeps")

/-- Packages that are not named after the last element of their path. -/
def irregularNames : List (String × String) :=
  [("crypto/x509/internal/macos", "macOS"),
   ("internal/trace/internal/testgen/go122", "testkit"),
   ("math/rand/v2", "rand"),
   ("runtime/internal/wasitest", "wasi")]

/-- The name of a package is the last element of its path, with few exceptions. -/
def standardName? (path : String) : Option String :=
  (irregularNames.lookup path).or
    (if standardPaths.contains path || internalPaths.contains path then (path.splitOn "/").getLast?
    else none)

end ReactiveModel.Imports
