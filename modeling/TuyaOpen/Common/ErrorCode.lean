import Mathlib.Data.Int.Notation

/-!
# Return codes

The codes of `tuya_error_code.h` that the modelled functions return or test.
They are plain integers in the source, and callers compare them with codes
that come from outside, so they stay integers here.
-/

namespace TuyaOpen

abbrev OperateRet := ℤ

def oprtOk : OperateRet := 0x0000
def oprtComError : OperateRet := -0x0001
def oprtInvalidParm : OperateRet := -0x0002
def oprtMallocFailed : OperateRet := -0x0003
def oprtNotSupported : OperateRet := -0x0004
def oprtNotFound : OperateRet := -0x0006
def oprtCrCjsonErr : OperateRet := -0x0007
def oprtCjsonParseErr : OperateRet := -0x0008
def oprtCjsonGetErr : OperateRet := -0x0009
def oprtRecvErr : OperateRet := -0x000f
def oprtKvsWrFail : OperateRet := -0x0011
def oprtKvsRdFail : OperateRet := -0x0012
def oprtTimeout : OperateRet := -0x0014
def oprtIndexOutOfBound : OperateRet := -0x0016
def oprtResourceNotReady : OperateRet := -0x0017
def oprtExceedUpperLimit : OperateRet := -0x0018
def oprtBufferNotEnough : OperateRet := -0x001f
def oprtAuthenticationFail : OperateRet := -0x0022
def oprtVersionFmtErr : OperateRet := -0x0024
def oprtBaseEventInvalidEventName : OperateRet := -0x0f00
def oprtBaseEventInvalidEventDesc : OperateRet := -0x0f01
def oprtSvcDpIdNotFound : OperateRet := -0x0e01
def oprtSvcDpTpNotMatch : OperateRet := -0x0e02
def oprtSvcDpTypePropIllegal : OperateRet := -0x0e04
def oprtSvcLanSocketFault : OperateRet := -0x1500
def oprtSvcLanSendErr : OperateRet := -0x1501
def oprtSvcMqttGwMqOffline : OperateRet := -0x1702
def oprtLinkCoreHttpGwNotExist : OperateRet := -0x1e0b
def oprtSvcBtApiTrsmitrContinue : OperateRet := -0x1f00
def oprtSvcBtApiTrsmitrError : OperateRet := -0x1f01
def oprtOsAdapterQueueSendFail : OperateRet := -0x6701

end TuyaOpen
