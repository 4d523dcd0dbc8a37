/-! # Error numbers

The causes that a system call can give for failing, with the texts that diagnostics use for them. -/

namespace OnePage

inductive Errno where
  | EPERM | ENOENT | EINTR | EIO | EBADF | ECHILD | EAGAIN | ENOMEM | EACCES | EFAULT | EEXIST
  | ENOTDIR | EISDIR | EINVAL | ENFILE | EMFILE | ENOTTY | ENOSPC | EPIPE | ENAMETOOLONG | ENOSYS
  | ENOTSOCK | EADDRINUSE | EADDRNOTAVAIL | ENETDOWN | ECONNABORTED | ECONNRESET | ENOBUFS
  | ENOTCONN | ETIMEDOUT | ECONNREFUSED | EHOSTUNREACH
  deriving DecidableEq, Repr

namespace Errno

def all : List Errno :=
  [EPERM, ENOENT, EINTR, EIO, EBADF, ECHILD, EAGAIN, ENOMEM, EACCES, EFAULT, EEXIST, ENOTDIR,
    EISDIR, EINVAL, ENFILE, EMFILE, ENOTTY, ENOSPC, EPIPE, ENAMETOOLONG, ENOSYS, ENOTSOCK,
    EADDRINUSE, EADDRNOTAVAIL, ENETDOWN, ECONNABORTED, ECONNRESET, ENOBUFS, ENOTCONN, ETIMEDOUT,
    ECONNREFUSED, EHOSTUNREACH]

def name : Errno → String
  | EPERM => "EPERM" | ENOENT => "ENOENT" | EINTR => "EINTR" | EIO => "EIO" | EBADF => "EBADF"
  | ECHILD => "ECHILD" | EAGAIN => "EAGAIN" | ENOMEM => "ENOMEM" | EACCES => "EACCES"
  | EFAULT => "EFAULT" | EEXIST => "EEXIST" | ENOTDIR => "ENOTDIR" | EISDIR => "EISDIR"
  | EINVAL => "EINVAL" | ENFILE => "ENFILE" | EMFILE => "EMFILE" | ENOTTY => "ENOTTY"
  | ENOSPC => "ENOSPC" | EPIPE => "EPIPE" | ENAMETOOLONG => "ENAMETOOLONG" | ENOSYS => "ENOSYS"
  | ENOTSOCK => "ENOTSOCK" | EADDRINUSE => "EADDRINUSE" | EADDRNOTAVAIL => "EADDRNOTAVAIL"
  | ENETDOWN => "ENETDOWN" | ECONNABORTED => "ECONNABORTED" | ECONNRESET => "ECONNRESET"
  | ENOBUFS => "ENOBUFS" | ENOTCONN => "ENOTCONN" | ETIMEDOUT => "ETIMEDOUT"
  | ECONNREFUSED => "ECONNREFUSED" | EHOSTUNREACH => "EHOSTUNREACH"

def ofName? (s : String) : Option Errno :=
  all.find? fun e => e.name == s

def code : Errno → Nat
  | EPERM => 1 | ENOENT => 2 | EINTR => 4 | EIO => 5 | EBADF => 9 | ECHILD => 10 | EAGAIN => 11
  | ENOMEM => 12 | EACCES => 13 | EFAULT => 14 | EEXIST => 17 | ENOTDIR => 20 | EISDIR => 21
  | EINVAL => 22 | ENFILE => 23 | EMFILE => 24 | ENOTTY => 25 | ENOSPC => 28 | EPIPE => 32
  | ENAMETOOLONG => 36 | ENOSYS => 38 | ENOTSOCK => 88 | EADDRINUSE => 98 | EADDRNOTAVAIL => 99
  | ENETDOWN => 100 | ECONNABORTED => 103 | ECONNRESET => 104 | ENOBUFS => 105 | ENOTCONN => 107
  | ETIMEDOUT => 110 | ECONNREFUSED => 111 | EHOSTUNREACH => 113

/-- What the C library calls the error. -/
def description : Errno → String
  | EPERM => "Operation not permitted"
  | ENOENT => "No such file or directory"
  | EINTR => "Interrupted system call"
  | EIO => "Input/output error"
  | EBADF => "Bad file descriptor"
  | ECHILD => "No child processes"
  | EAGAIN => "Resource temporarily unavailable"
  | ENOMEM => "Cannot allocate memory"
  | EACCES => "Permission denied"
  | EFAULT => "Bad address"
  | EEXIST => "File exists"
  | ENOTDIR => "Not a directory"
  | EISDIR => "Is a directory"
  | EINVAL => "Invalid argument"
  | ENFILE => "Too many open files in system"
  | EMFILE => "Too many open files"
  | ENOTTY => "Inappropriate ioctl for device"
  | ENOSPC => "No space left on device"
  | EPIPE => "Broken pipe"
  | ENAMETOOLONG => "File name too long"
  | ENOSYS => "Function not implemented"
  | ENOTSOCK => "Socket operation on non-socket"
  | EADDRINUSE => "Address already in use"
  | EADDRNOTAVAIL => "Cannot assign requested address"
  | ENETDOWN => "Network is down"
  | ECONNABORTED => "Software caused connection abort"
  | ECONNRESET => "Connection reset by peer"
  | ENOBUFS => "No buffer space available"
  | ENOTCONN => "Transport endpoint is not connected"
  | ETIMEDOUT => "Connection timed out"
  | ECONNREFUSED => "Connection refused"
  | EHOSTUNREACH => "No route to host"

/-- What the kernel's own error table calls the error, where that differs. -/
def tableDescription : Errno → String
  | EIO => "I/O error"
  | EBADF => "Bad file number"
  | EAGAIN => "Try again"
  | ENOMEM => "Out of memory"
  | ENFILE => "File table overflow"
  | ENOTTY => "Not a typewriter"
  | e => e.description

/-- The text of a failed call on a socket, a process, a pipe or the event queue. -/
def labelled (e : Errno) : String := e.name ++ ": " ++ e.tableDescription

/-- The text of a failed call on a file, an address or a limit. -/
def numbered (e : Errno) : String := e.description ++ " (os error " ++ toString e.code ++ ")"

end Errno

/-- What a call without a result of its own reports. -/
abbrev Outcome := Except Errno Unit

end OnePage
