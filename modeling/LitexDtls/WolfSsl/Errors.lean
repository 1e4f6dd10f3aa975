import Mathlib.Data.List.Basic

/-!
# Error codes

The error codes of wolfSSL that the record layer and the handshake layer return.
-/
namespace LitexDtls.WolfSsl

def wcPendingE : Int32 := -108
def bufferE : Int32 := -132
def badFuncArg : Int32 := -173
def badStateE : Int32 := -192
def memoryError : Int32 := -303
def parseError : Int32 := -306
def incompleteData : Int32 := -310
def versionError : Int32 := -326
def bufferError : Int32 := -328
def lengthError : Int32 := -341
def sequenceError : Int32 := -370
def outOfOrderE : Int32 := -373
def sanityCipherE : Int32 := -375
def sanityMsgE : Int32 := -394
def dtlsTooManyFragmentsE : Int32 := -455
def dtlsPartialRecordRead : Int32 := -455

end LitexDtls.WolfSsl
