import Mathlib.Algebra.Order.Ring.Int

/-!
# Result codes and limits

The codes of `msrverror.h` and the definitions of `msrvdef.h` that the modelled
functions use.
-/

namespace MSrv

/-- Negative values indicate an error, zero or more indicates success. -/
abbrev MSrvResult := Int

/-- The largest `int`. -/
def INT_MAX : Int := 2 ^ 31 - 1

/-- The least `int`. -/
def INT_MIN : Int := -2 ^ 31

/-- The largest `long`. -/
def LONG_MAX : Int := 2 ^ 63 - 1

/-- The least `long`. -/
def LONG_MIN : Int := -2 ^ 63

theorem INT_MAX_nonneg : 0 ≤ INT_MAX := by decide

def MSRVERR_GENERIC_BASE : MSrvResult := 0
def MSRVERR_NULL_ARGUMENT : MSrvResult := MSRVERR_GENERIC_BASE - 1
def MSRVERR_SHORT_WRITE : MSrvResult := MSRVERR_GENERIC_BASE - 2
def MSRVERR_TIMEOUT : MSrvResult := MSRVERR_GENERIC_BASE - 4
def MSRVERR_INVALID_ARGUMENT : MSrvResult := MSRVERR_GENERIC_BASE - 5

def MSRVERR_SERVER_BASE : MSrvResult := -1000
def MSRVERR_SOCKET_FAILED : MSrvResult := MSRVERR_SERVER_BASE - 1
def MSRVERR_BIND_FAILED : MSrvResult := MSRVERR_SERVER_BASE - 2
def MSRVERR_LISTEN_FAILED : MSrvResult := MSRVERR_SERVER_BASE - 3
/-- Special code. -/
def MSRVERR_SHUTDOWN_EVENT : MSrvResult := MSRVERR_SERVER_BASE - 6
def MSRVERR_DESCRIPTOR_NOT_FOUND : MSrvResult := MSRVERR_SERVER_BASE - 8
def MSRVERR_CONNECTION_NO_SOCKET : MSrvResult := MSRVERR_SERVER_BASE - 9
def MSRVERR_SET_SOCKET_OPTIONS_FAILED : MSrvResult := MSRVERR_SERVER_BASE - 10

def MSRVERR_LOG_BASE : MSrvResult := -2000
def MSRVERR_LOG_OPEN_FAILED : MSrvResult := MSRVERR_LOG_BASE - 1
def MSRVERR_LOG_WRITE_FAILED : MSrvResult := MSRVERR_LOG_BASE - 2
def MSRVERR_LOG_NOT_OPEN : MSrvResult := MSRVERR_LOG_BASE - 3
def MSRVERR_LOG_NO_FILENAME : MSrvResult := MSRVERR_LOG_BASE - 4
def MSRVERR_LOG_ALREADY_OPEN : MSrvResult := MSRVERR_LOG_BASE - 5
def MSRVERR_LOG_INVALID_FATALITY : MSrvResult := MSRVERR_LOG_BASE - 6

def MSRVERR_THREAD_BASE : MSrvResult := -3000
def MSRVERR_THREAD_CREATE_FAILED : MSrvResult := MSRVERR_THREAD_BASE - 1

/-- Maximum number of successive errors before exiting. -/
def MSRV_MAX_SELECT_ERROR_COUNT : Nat := 10

/-- Read buffer length for reading data from socket. -/
def MSRV_READ_BUFFER_LEN : Nat := 1024

end MSrv
