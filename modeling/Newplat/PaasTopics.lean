import Newplat.Session

/-! The topics newplat publishes and subscribes to. Both are formatted into 80 bytes, so what is
behind the 79th character of the configured names is never seen by the broker. -/
namespace Newplat

open Base

section Formatted

variable {P : World → Prop} {topic : CString} {i : MsgAdd} {mosq : Nat} {first : Popen} {w : World}

end Formatted

end Newplat
