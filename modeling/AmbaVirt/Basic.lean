/-
What every part of the development shares: the errno values the host
tools, the broker and the kernel module return, and the sizes host and
guest agree on.
-/
import AmbaVirt.Lib.Table

namespace AmbaVirt

/-- The errno constants of the sources, without their sign: a C
function that returns `-EINVAL` is `.error .EINVAL` here. -/
inductive Errno
  | EPERM | ENOENT | EIO | EBADF | EAGAIN | ENOMEM | EACCES | EFAULT
  | EBUSY | EEXIST | ENODEV | EINVAL | EMFILE | ENOSPC | ERANGE
  | EDEADLK | ENOSYS | EPROTO | EOVERFLOW | EMSGSIZE | EOPNOTSUPP
  | ETIMEDOUT | ESTALE | EHOSTDOWN | E2BIG | EBADMSG | EPROTONOSUPPORT
  | ENOTTY | ECONNRESET | EFBIG | EPIPE | ENOTCONN | ESHUTDOWN | EALREADY
  | EINPROGRESS
  deriving DecidableEq

/-- The longest message on the channel, header included. -/
def AMBA_VIRT_MAX_MSG : Nat := 4096

/-- The size of the RPC arena where none was negotiated. -/
def CAVALRY_RPC_ARENA_SIZE : UInt32 := 0x00100000

end AmbaVirt
