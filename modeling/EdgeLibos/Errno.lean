/-!
# Errno values

The Linux x86-64 numbers the modelled syscalls return. A handler returns the
negated value, as the guest's libc expects.
-/

namespace EdgeLibos.Errno

abbrev ENOENT : Int := 2
abbrev EIO : Int := 5
abbrev EBADF : Int := 9
abbrev ECHILD : Int := 10
abbrev EAGAIN : Int := 11
abbrev ENOMEM : Int := 12
abbrev EACCES : Int := 13
abbrev EFAULT : Int := 14
abbrev EEXIST : Int := 17
abbrev ENOTDIR : Int := 20
abbrev EISDIR : Int := 21
abbrev EINVAL : Int := 22
abbrev ESPIPE : Int := 29
abbrev EPIPE : Int := 32
abbrev ENOSYS : Int := 38
abbrev ENOTEMPTY : Int := 39
abbrev EDESTADDRREQ : Int := 89
abbrev EPROTONOSUPPORT : Int := 93
abbrev EOPNOTSUPP : Int := 95
abbrev EAFNOSUPPORT : Int := 97
abbrev EADDRINUSE : Int := 98
abbrev EADDRNOTAVAIL : Int := 99
abbrev ENOTCONN : Int := 107
abbrev ETIMEDOUT : Int := 110

end EdgeLibos.Errno
