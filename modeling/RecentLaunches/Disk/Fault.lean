/-
Why the file system refuses a request, with the number and the words it has for it.
-/
namespace RecentLaunches

/-- Why a file cannot be read or written. -/
inductive DiskFault
  | missing
  | present
  | notDirectory
  | isDirectory
  | nameTooLong
  | nulInPath
  | notText
  deriving DecidableEq, Repr

/-- What is said about a file that cannot be read or written. -/
def DiskFault.message (f : DiskFault) : String :=
  "IO error: " ++
    match f with
    | missing => "No such file or directory (os error 2)"
    | present => "File exists (os error 17)"
    | notDirectory => "Not a directory (os error 20)"
    | isDirectory => "Is a directory (os error 21)"
    | nameTooLong => "File name too long (os error 36)"
    | nulInPath => "file name contained an unexpected NUL byte"
    | notText => "stream did not contain valid UTF-8"

end RecentLaunches
