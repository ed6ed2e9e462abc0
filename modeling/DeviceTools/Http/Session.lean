/-
The HTTP client: its result codes and the sizes of its buffers.

`size_t` has 32 bits on the devices, and the counters of the transfer loops, which also are given
the result -1 of a failed `recv` or `send`, are taken modulo `SIZE_T`.
-/
import DeviceTools.Dns.DottedQuad

namespace DeviceTools.Http

/-- The codes that the functions here return. -/
inductive MRJEcode where
  | MRJE_OK
  | MRJE_UNKNOWN
  | MRJE_URLINLEGAL
  | MRJE_DISCONNHOST
  | MRJE_NOCOMPLETERES
  | MRJE_SNDREQERR
  | MRJE_SELECTFAL
  | MRJE_TIME_OUT
  | MRJE_HTTP_SERVERE400
  | MRJE_HTTP_SERVERE401
  | MRJE_HTTP_SERVERE403
  | MRJE_HTTP_SERVERE404
  | MRJE_HTTP_SERVERE500
  | MRJE_HTTP_SERVERE503
  | MRJE_OUT_OF_MEMORY
  | MRJE_WRITE_ERROR
  | MRJE_SEND_ERROR
  | MRJE_RECV_ERROR
deriving DecidableEq, Repr

/-- The number of values of a `size_t`. -/
def SIZE_T : ℕ := 2 ^ 32

def MRJ_DEF_PORT : ℕ := 80
def MRJ_MAX_PATH : ℕ := 256
def MRJ_MAX_HOST : ℕ := 128
def MRJ_MAX_REQHEAD : ℕ := 1024
def MRJ_MAX_RESPHEAD : ℕ := 10 * 1024
def MRJ_MAX_BUFSIZE : ℕ := 2048
def MRJ_DOWN_PERSIZE : ℕ := 1440

/-- The value of a `size_t` for the result -1. -/
def MINUS_ONE : ℕ := SIZE_T - 1

/-- What `wselect` finds: something to read, nothing in time, or an error. -/
inductive Select where
  | ready
  | timeout
  | fails
deriving DecidableEq, Repr

def CR : UInt8 := 0x0D
def LF : UInt8 := 0x0A

/-- The characters of a text. -/
def text (s : String) : List UInt8 := s.toList.map fun c => UInt8.ofNat c.toNat

end DeviceTools.Http
